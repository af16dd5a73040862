import Eligibility.Proofs.Except
import Eligibility.Proofs.RuleSet.Chain
import Eligibility.RuleSet.Report

/-!
# The order of operands and rules

Evaluation goes from left to right and stops early, so the order of two operands decides which
comparisons are made, and with them which errors come up.  It never decides between the two
verdicts.  What an expression says without any order is a third thing: its verdict if the
comparisons that have one settle it, whatever the others would say, and nothing otherwise.  Every
verdict that evaluation reaches is the one that is settled in this sense, in whichever order it
goes.

## Main definitions

* `Connective.settle`, `Expr.settled`, `RuleSet.settled` : the verdict that does not depend on
  operands without one.
* `Expr.Swapped e e'` : `e'` is `e` with the operands of some connectives swapped.

## Main results

* `Expr.settled_of_evaluate`, `RuleSet.settled_of_evaluate` : evaluation gives no other verdict.
* `Expr.Swapped.settled_eq`, `RuleSet.settled_perm` : no order takes part in what is settled.
* `RuleSet.verdict_eq_of_reordered` : **two verdicts in two orders are the same.**
-/

namespace Eligibility

/-! ### Two operands -/

namespace Connective

/-- The verdict of two operands of which each may be without one.  One operand is enough if it
decides. -/
def settle (c : Connective) : Option Bool → Option Bool → Option Bool
  | some v, some w => some (if v = c.decisive then v else w)
  | some v, none => if v = c.decisive then some v else none
  | none, some w => if w = c.decisive then some w else none
  | none, none => none

variable (c : Connective) (p q s : Option Bool)

theorem settle_comm : c.settle p q = c.settle q p := by
  rcases p with _ | _ | _ <;> rcases q with _ | _ | _ <;> cases c <;> rfl

theorem settle_left_comm : c.settle p (c.settle q s) = c.settle q (c.settle p s) := by
  rcases p with _ | _ | _ <;> rcases q with _ | _ | _ <;> rcases s with _ | _ | _ <;>
    cases c <;> rfl

@[simp] theorem settle_decisive : c.settle (some c.decisive) q = some c.decisive := by
  rcases q with _ | _ | _ <;> cases c <;> rfl

variable {c p q}

/-- An operand that has a verdict and does not decide leaves it to the other one. -/
theorem settle_of_ne {v w : Bool} (hv : v ≠ c.decisive) :
    c.settle (some v) (some w) = some w := by
  rw [settle, if_neg hv]

/-- A verdict of two operands in turn is the one that both settle. -/
theorem settle_of_inTurn {x y : Except EvalError Bool} {v : Bool}
    (hx : ∀ w, x = .ok w → p = some w) (hy : ∀ w, y = .ok w → q = some w)
    (h : c.inTurn x y = .ok v) : c.settle p q = some v := by
  rcases inTurn_eq_ok_iff.1 h with ⟨hxv, rfl⟩ | ⟨hxv, hyv⟩
  · rw [hx _ hxv, settle_decisive]
  · rw [hx _ hxv, hy _ hyv, settle_of_ne c.not_decisive_ne]

end Connective

/-! ### Expressions -/

namespace Expr

variable {record : Record} {e e' : Expr}

/-- The verdict that the comparisons settle, those without a verdict left out. -/
def settled (record : Record) : Expr → Option Bool
  | compare field op literal => (verdict record field op literal).toOption
  | and l r => Connective.and.settle (l.settled record) (r.settled record)
  | or l r => Connective.or.settle (l.settled record) (r.settled record)
  | not e => (e.settled record).map (!·)

theorem settled_join (c : Connective) (l r : Expr) (record : Record) :
    (c.join l r).settled record = c.settle (l.settled record) (r.settled record) := by
  cases c <;> rfl

/-- **Evaluation gives no verdict but the one that is settled.** -/
theorem settled_of_evaluate {v : Bool} (h : e.evaluate record = .ok v) :
    e.settled record = some v := by
  induction e using induction_join generalizing v with
  | compare field op literal =>
    rw [evaluate_compare] at h
    rw [settled, h]
    rfl
  | join c l r hl hr =>
    rw [evaluate_join] at h
    rw [settled_join]
    exact Connective.settle_of_inTurn (fun _ => hl) (fun _ => hr) h
  | not e he =>
    rw [evaluate_not] at h
    obtain ⟨w, hw, rfl⟩ := Except.map_eq_ok_iff.1 h
    rw [settled, he hw]
    rfl

/-- The second expression is the first one with the operands of some conjunctions and disjunctions
swapped. -/
inductive Swapped : Expr → Expr → Prop
  /-- A comparison has no operands. -/
  | compare (field : String) (op : CompareOp) (literal : Value) :
    Swapped (.compare field op literal) (.compare field op literal)
  /-- A negation of either. -/
  | not {e e' : Expr} : Swapped e e' → Swapped (.not e) (.not e')
  /-- Operands that keep their order. -/
  | keep {l l' r r' : Expr} (c : Connective) : Swapped l l' → Swapped r r' →
    Swapped (c.join l r) (c.join l' r')
  /-- Operands that change their order. -/
  | swap {l l' r r' : Expr} (c : Connective) : Swapped l l' → Swapped r r' →
    Swapped (c.join l r) (c.join r' l')

/-- **The order of operands takes no part in what is settled.** -/
theorem Swapped.settled_eq (h : Swapped e e') (record : Record) :
    e.settled record = e'.settled record := by
  induction h with
  | compare => rfl
  | not _ ih => rw [settled, settled, ih]
  | keep c _ _ hl hr => rw [settled_join, settled_join, hl, hr]
  | swap c _ _ hl hr => rw [settled_join, settled_join, hl, hr, Connective.settle_comm]

end Expr

/-! ### Sets of rules -/

namespace RuleSet

variable {record : Record} {s s' : RuleSet}

/-- The verdict that the rules settle, those without a verdict left out. -/
def settled (record : Record) (s : RuleSet) : Option Bool :=
  s.rules.foldr (fun rule => s.combine.connective.settle (rule.expr.settled record))
    (some !s.combine.connective.decisive)

/-- **A set of rules gives no verdict but the one that is settled.** -/
theorem settled_of_evaluate {v : Bool} (h : s.evaluate record = .ok v) :
    s.settled record = some v := by
  obtain ⟨rules, combine⟩ := s
  induction rules generalizing v with
  | nil =>
    rw [evaluate_nil] at h
    exact congrArg some (Except.ok.inj h)
  | cons rule rules ih =>
    rw [evaluate_cons] at h
    exact Connective.settle_of_inTurn (fun _ => Expr.settled_of_evaluate) (fun _ => ih) h

/-- **The order of rules takes no part in what is settled.** -/
theorem settled_perm (hcombine : s.combine = s'.combine) (hrules : s.rules.Perm s'.rules)
    (record : Record) : s.settled record = s'.settled record := by
  rw [settled, settled, hcombine]
  exact hrules.foldr_eq' (fun rule _ rule' _ => Connective.settle_left_comm _ _ _) _

/-- A report asks every rule, so the order of the rules takes no part in its verdict. -/
theorem eligible_perm (hcombine : s.combine = s'.combine) (hrules : s.rules.Perm s'.rules)
    (record : Record) : (s.report record).eligible = (s'.report record).eligible := by
  have houtcomes := hrules.map fun rule => Outcome.mk rule.name (rule.evaluate record)
  simp only [Report.eligible, report, hcombine]
  cases s'.combine with
  | all => exact houtcomes.all_eq
  | any => exact houtcomes.any_eq

/-- **Two verdicts in two orders are the same.**  For expressions that differ in the order of
operands anywhere, and for sets that differ in the order of rules, two verdicts on a record never
contradict each other; the verdict of a report does not depend on the order at all.  In one order
there may be a verdict where there is none in the other one: an operand that decides hides the error
of the operand behind it, and not of the one before it. -/
theorem verdict_eq_of_reordered (record : Record) :
    (∀ (e e' : Expr) (v v' : Bool), e.Swapped e' → e.evaluate record = .ok v →
      e'.evaluate record = .ok v' → v = v') ∧
    (∀ s s' : RuleSet, s.combine = s'.combine → s.rules.Perm s'.rules →
      (∀ v v', s.evaluate record = .ok v → s'.evaluate record = .ok v' → v = v') ∧
      (s.report record).eligible = (s'.report record).eligible) ∧
    (∀ (c : Connective) (l r : Expr) (err : EvalError), l.evaluate record = .ok c.decisive →
      r.evaluate record = .error err →
      (c.join l r).evaluate record = .ok c.decisive ∧
        (c.join r l).evaluate record = .error err) := by
  refine ⟨fun e e' v v' hswapped hv hv' => ?_,
    fun s s' hcombine hrules => ⟨fun v v' hv hv' => ?_, ?_⟩,
    fun c l r err hl hr => ⟨?_, ?_⟩⟩
  · have hsettled := Expr.settled_of_evaluate hv
    rw [hswapped.settled_eq record, Expr.settled_of_evaluate hv'] at hsettled
    exact (Option.some.inj hsettled).symm
  · have hsettled := settled_of_evaluate hv
    rw [settled_perm hcombine hrules record, settled_of_evaluate hv'] at hsettled
    exact (Option.some.inj hsettled).symm
  · exact eligible_perm hcombine hrules record
  · rw [Expr.evaluate_join, hl]
    exact if_pos rfl
  · rw [Expr.evaluate_join, hr]
    rfl

/-- A conjunction whose operands are swapped together with those of the conjunction inside it, and
three rules in two orders.  Either order comes to its verdict by another comparison and never looks
at the missing field, unlike the inner conjunction alone. -/
theorem verdict_eq_of_both_refused :
    let paid : Expr := .compare "paid" .eq (.text "yes")
    let missing : Expr := .compare "missing" .eq (.text "x")
    let guest : Expr := .compare "member" .ne (.text "yes")
    let first : RuleSet := ⟨[⟨"p", "paid == 'yes'", paid, {}⟩, ⟨"m", "missing == 'x'", missing, {}⟩,
      ⟨"g", "member != 'yes'", guest, {}⟩], .all⟩
    let second : RuleSet := ⟨[⟨"g", "member != 'yes'", guest, {}⟩, ⟨"p", "paid == 'yes'", paid, {}⟩,
      ⟨"m", "missing == 'x'", missing, {}⟩], .all⟩
    let record := Record.ofList [("paid", .text "no"), ("member", .text "yes")]
    ((Expr.and (.and paid missing) guest).Swapped (.and guest (.and missing paid)) ∧
      ∃ v v', (Expr.and (.and paid missing) guest).evaluate record = .ok v ∧
        (Expr.and guest (.and missing paid)).evaluate record = .ok v' ∧ v = v') ∧
    (first.rules.Perm second.rules ∧
      ∃ v v', first.evaluate record = .ok v ∧ second.evaluate record = .ok v' ∧ v = v') ∧
    (Expr.and paid missing).evaluate record = .ok false ∧
    (Expr.and missing paid).evaluate record = .error (.unknownField "missing") := by
  intro paid missing guest first second record
  have hswapped : (Expr.and (.and paid missing) guest).Swapped (.and guest (.and missing paid)) :=
    .swap .and (.swap .and (.compare ..) (.compare ..)) (.compare ..)
  have hperm : first.rules.Perm second.rules := @List.perm_append_comm _ (first.rules.take 2) _
  have hleft : (Expr.and (.and paid missing) guest).evaluate record = .ok false := by decide +kernel
  have hright : (Expr.and guest (.and missing paid)).evaluate record = .ok false := by
    decide +kernel
  have hfirst : first.evaluate record = .ok false := by decide +kernel
  have hsecond : second.evaluate record = .ok false := by decide +kernel
  have hpaid : paid.evaluate record = .ok false := by decide +kernel
  have hmissing : missing.evaluate record = .error (.unknownField "missing") := by decide +kernel
  obtain ⟨hexpr, hset, hhidden⟩ := verdict_eq_of_reordered record
  have hverdicts := (hset first second rfl hperm).1 false false hfirst hsecond
  exact ⟨⟨hswapped, _, _, hleft, hright, hexpr _ _ _ _ hswapped hleft hright⟩,
    ⟨hperm, _, _, hfirst, hsecond, hverdicts⟩, hhidden .and _ _ _ hpaid hmissing⟩

end RuleSet

end Eligibility
