import Eligibility.Proofs.Except
import Eligibility.Proofs.RuleSet.Chain
import Eligibility.RuleSet.Report

/-!
# Reports and verdicts

A report asks every rule, and the verdict of a set only the rules up to the one that decides or
fails.  As long as no rule fails before the deciding one, the two agree.  A rule that fails counts
in a report as not satisfied: where all rules have to hold that settles the matter, and where one is
enough the rules after it have the say, which the verdict never asks.

## Main definitions

* `RuleSet.afterFailure` : the rules after the first one without a verdict.

## Main results

* `RuleSet.passed_report`, `RuleSet.errors_report` : the rules that a report lists.
* `RuleSet.eligible_of_evaluate` : a verdict of the set is the one of its report.
* `RuleSet.eligible_of_evaluate_eq_error` : what a report says where the set fails.
* `RuleSet.report_agrees` : **a report and the verdict agree as far as errors allow.**
-/

namespace Eligibility

namespace Outcome

@[simp] theorem passed_ok (name : String) (v : Bool) : passed ⟨name, .ok v⟩ = v := rfl

@[simp] theorem passed_error (name : String) (err : EvalError) :
    passed ⟨name, .error err⟩ = false := rfl

theorem passed_eq_true_iff {o : Outcome} : o.passed = true ↔ o.result = .ok true := by
  obtain ⟨name, err | v⟩ := o <;> simp

end Outcome

namespace RuleSet

variable {record : Record}

/-! ### What a report lists -/

/-- A report names the rules that hold, in their order. -/
theorem passed_report (s : RuleSet) (record : Record) : (s.report record).passed =
    (s.rules.filter fun rule => rule.evaluate record = .ok true).map Rule.name := by
  rw [Report.passed, report, List.filter_map, List.map_map]
  refine congrArg (List.map Rule.name) (List.filter_congr fun rule _ => ?_)
  rw [Bool.eq_iff_iff, decide_eq_true_iff]
  exact Outcome.passed_eq_true_iff

/-- A report names the rules that fail with their errors, in their order. -/
theorem errors_report (s : RuleSet) (record : Record) :
    List.Forall₂ (fun rule entry => entry.1 = rule.name ∧ rule.evaluate record = .error entry.2)
      (s.rules.filter fun rule => !(rule.evaluate record).isOk) (s.report record).errors := by
  obtain ⟨rules, combine⟩ := s
  induction rules with
  | nil => exact .nil
  | cons rule rules ih =>
    simp only [report, Report.errors, List.map_cons, List.filterMap_cons, List.filter_cons,
      Outcome.error?] at ih ⊢
    cases hresult : rule.evaluate record with
    | ok v => exact ih
    | error err => exact .cons ⟨rfl, hresult⟩ ih

/-! ### The verdict of a report -/

/-- The report goes on to the later rules if the first one does not decide. -/
theorem eligible_cons (combine : Combine) (rule : Rule) (rules : List Rule) :
    (report ⟨rule :: rules, combine⟩ record).eligible =
      if Outcome.passed ⟨rule.name, rule.evaluate record⟩ = combine.connective.decisive then
        combine.connective.decisive
      else (report ⟨rules, combine⟩ record).eligible := by
  cases combine with
  | all =>
    simp only [report, Report.eligible, List.map_cons, List.all_cons]
    cases Outcome.passed ⟨rule.name, rule.evaluate record⟩ <;> rfl
  | any =>
    simp only [report, Report.eligible, List.map_cons, List.any_cons]
    cases Outcome.passed ⟨rule.name, rule.evaluate record⟩ <;> rfl

/-- The later rules have the say if the first one has a verdict that does not decide. -/
theorem eligible_cons_of_open {combine : Combine} {rule : Rule} {rules : List Rule}
    (h : rule.evaluate record = .ok !combine.connective.decisive) :
    (report ⟨rule :: rules, combine⟩ record).eligible =
      (report ⟨rules, combine⟩ record).eligible := by
  rw [eligible_cons, h, Outcome.passed_ok, if_neg combine.connective.not_decisive_ne]

/-- Where one rule is enough, a report looks for a rule that holds. -/
theorem eligible_any_iff {rules : List Rule} : (report ⟨rules, .any⟩ record).eligible = true ↔
    ∃ rule ∈ rules, rule.evaluate record = .ok true := by
  simp only [report, Report.eligible, List.any_map, List.any_eq_true, Function.comp_apply,
    Outcome.passed_eq_true_iff]

/-- **A verdict of the set is the one of its report.** -/
theorem eligible_of_evaluate {s : RuleSet} {v : Bool} (h : s.evaluate record = .ok v) :
    (s.report record).eligible = v := by
  obtain ⟨rules, combine⟩ := s
  induction rules with
  | nil =>
    rw [evaluate_nil] at h
    obtain rfl := Except.ok.inj h
    cases combine <;> rfl
  | cons rule rules ih =>
    rw [evaluate_cons, Connective.inTurn_eq_ok_iff] at h
    rcases h with ⟨hrule, rfl⟩ | ⟨hrule, hrest⟩
    · rw [eligible_cons, hrule, Outcome.passed_ok, if_pos rfl]
    · rw [eligible_cons_of_open hrule, ih hrest]

/-- The rules after the first one without a verdict. -/
def afterFailure (s : RuleSet) (record : Record) : List Rule :=
  (s.rules.dropWhile fun rule => (rule.evaluate record).isOk).tail

/-- **Where the set fails**, the failing rule decides the report if a rule that is not satisfied
decides, and otherwise the rules after it do. -/
theorem eligible_of_evaluate_eq_error {s : RuleSet} {err : EvalError}
    (h : s.evaluate record = .error err) : (s.report record).eligible =
      if false = s.combine.connective.decisive then false
      else (report ⟨s.afterFailure record, s.combine⟩ record).eligible := by
  obtain ⟨rules, combine⟩ := s
  induction rules with
  | nil =>
    rw [evaluate_nil] at h
    cases h
  | cons rule rules ih =>
    -- Either the first rule fails, or it leaves the matter open and a later one fails.
    rw [evaluate_cons, Connective.inTurn_eq_error_iff] at h
    rcases h with hrule | ⟨hrule, hrest⟩
    · have hafter : afterFailure ⟨rule :: rules, combine⟩ record = rules := by
        rw [afterFailure, List.dropWhile_cons_of_neg (by rw [hrule]; exact nofun), List.tail_cons]
      rw [eligible_cons, hrule, Outcome.passed_error, hafter]
      split
      · next hdecides => exact hdecides.symm
      · rfl
    · have hafter : afterFailure ⟨rule :: rules, combine⟩ record =
          afterFailure ⟨rules, combine⟩ record := by
        rw [afterFailure, List.dropWhile_cons_of_pos (by rw [hrule]; rfl), afterFailure]
      rw [eligible_cons_of_open hrule, hafter, ih hrest]

/-- **A report and the verdict agree as far as errors allow.**  A report has the result of each
rule, in order, and lists the rules that hold and the rules that fail.  If all rules have to hold,
it says so exactly where the set gives this verdict.  If one is enough, it says what the set says;
where the set fails, it depends on the rules after the first one that fails. -/
theorem report_agrees (s : RuleSet) (record : Record) :
    List.Forall₂ (fun rule o => o.name = rule.name ∧ o.result = rule.evaluate record)
      s.rules (s.report record).outcomes ∧
    (s.report record).passed =
      (s.rules.filter fun rule => rule.evaluate record = .ok true).map Rule.name ∧
    List.Forall₂ (fun rule entry => entry.1 = rule.name ∧ rule.evaluate record = .error entry.2)
      (s.rules.filter fun rule => !(rule.evaluate record).isOk) (s.report record).errors ∧
    (s.combine = .all → ((s.report record).eligible = true ↔ s.evaluate record = .ok true)) ∧
    (s.combine = .any →
      (∀ v, s.evaluate record = .ok v → (s.report record).eligible = v) ∧
      ∀ err, s.evaluate record = .error err → ((s.report record).eligible = true ↔
        ∃ rule ∈ s.afterFailure record, rule.evaluate record = .ok true)) := by
  refine ⟨?_, passed_report s record, errors_report s record, fun hall => ⟨fun h => ?_, ?_⟩,
    fun hany => ⟨fun v => eligible_of_evaluate, fun err herror => ?_⟩⟩
  · rw [report, List.forall₂_map_right_iff]
    exact List.forall₂_same.2 fun rule _ => ⟨rfl, rfl⟩
  · cases hresult : s.evaluate record with
    | ok v => rw [← h, eligible_of_evaluate hresult]
    | error err =>
      rw [eligible_of_evaluate_eq_error hresult, hall] at h
      cases h
  · exact eligible_of_evaluate
  · rw [eligible_of_evaluate_eq_error herror, hany]
    exact eligible_any_iff

/-- Three rules of which the second one fails and only the third one holds.  If one is enough, the
set fails and its report still finds the third one; if all have to hold, both stop at the first. -/
theorem report_agrees_of_late_rule :
    let paid : Rule := ⟨"paid", "paid == 'yes'", .compare "paid" .eq (.text "yes"), {}⟩
    let missing : Rule := ⟨"missing", "missing == 'x'", .compare "missing" .eq (.text "x"), {}⟩
    let guest : Rule := ⟨"guest", "member != 'yes'", .compare "member" .ne (.text "yes"), {}⟩
    let record := Record.ofList [("paid", .text "no"), ("member", .text "no")]
    (evaluate ⟨[paid, missing, guest], .any⟩ record = .error (.unknownField "missing") ∧
      (report ⟨[paid, missing, guest], .any⟩ record).eligible = true) ∧
    evaluate ⟨[paid, missing, guest], .all⟩ record = .ok false ∧
      ¬(report ⟨[paid, missing, guest], .all⟩ record).eligible = true := by
  intro paid missing guest record
  have hguest : guest.evaluate record = .ok true := by decide +kernel
  have hany : evaluate ⟨[paid, missing, guest], .any⟩ record =
      .error (.unknownField "missing") := by decide +kernel
  have hall : evaluate ⟨[paid, missing, guest], .all⟩ record = .ok false := by decide +kernel
  have hafter : afterFailure ⟨[paid, missing, guest], .any⟩ record = [guest] := by decide +kernel
  have hlate : ∃ rule ∈ afterFailure ⟨[paid, missing, guest], .any⟩ record,
      rule.evaluate record = .ok true := by
    rw [hafter]
    exact ⟨guest, List.mem_cons_self, hguest⟩
  have hreport := report_agrees ⟨[paid, missing, guest], .any⟩ record
  have hreport' := report_agrees ⟨[paid, missing, guest], .all⟩ record
  refine ⟨⟨hany, ((hreport.2.2.2.2 rfl).2 _ hany).2 hlate⟩, hall, fun heligible => ?_⟩
  rw [hreport'.2.2.2.1 rfl, hall] at heligible
  cases heligible

end RuleSet

end Eligibility
