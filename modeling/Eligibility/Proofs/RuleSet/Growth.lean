import Eligibility.Proofs.Expr.Views
import Eligibility.Proofs.RuleSet.Detailed

/-!
# Records that grow

A form is filled in field by field.  A field that is added can only turn the error that it was
missing into something else: every verdict stays, because the comparisons it rests on find the same
values, and so does every other error.  The same holds of the rules of a set one after the other.

## Main definitions

* `Record.ExtendedBy r r'` : the second record has all fields of the first one, with the same
  values.
* `Record.Upholds r x x'` : a result stays, unless it only says that the record lacks a field.

## Main results

* `Record.Upholds.inTurn` : two operands in turn uphold what each of them upholds.
* `Expr.upholds_of_extendedBy`, `RuleSet.upholds_of_extendedBy` : more fields uphold every result.
* `RuleSet.verdict_of_extendedBy` : **more fields never change a verdict.**
-/

namespace Eligibility

namespace Record

/-- The second record has all fields of the first one, with the same texts and alike numbers. -/
def ExtendedBy (r r' : Record) : Prop :=
  ∀ field v, r.get? field = some v → ∃ w, r'.get? field = some w ∧ v.Alike w

/-- A field that a record lacks can be added. -/
theorem extendedBy_insert {r : Record} {field : String} (h : r.get? field = none) (v : Value) :
    r.ExtendedBy (r.insert field v) := by
  intro other w hw
  have hne : field ≠ other := by
    rintro rfl
    rw [h] at hw
    cases hw
  refine ⟨w, ?_, .refl w⟩
  rw [get?_insert, if_neg hne, hw]

/-- A result that stays as it is, unless it only says that the record lacks a field. -/
def Upholds (r : Record) (x x' : Except EvalError Bool) : Prop :=
  x' = x ∨ ∃ field, r.get? field = none ∧ x = .error (.unknownField field)

namespace Upholds

variable {r : Record} {c : Connective} {x x' y y' : Except EvalError Bool} {v : Bool}

theorem eq_ok (h : r.Upholds (.ok v) x') : x' = .ok v := by
  rcases h with rfl | ⟨field, -, hfield⟩
  · rfl
  · cases hfield

theorem map (h : r.Upholds x x') (f : Bool → Bool) : r.Upholds (x.map f) (x'.map f) := by
  rcases h with rfl | ⟨field, hlacks, rfl⟩
  · exact .inl rfl
  · exact .inr ⟨field, hlacks, rfl⟩

/-- Two operands in turn uphold what each of them upholds: the second one is asked in the same
cases. -/
theorem inTurn (hx : r.Upholds x x') (hy : r.Upholds y y') :
    r.Upholds (c.inTurn x y) (c.inTurn x' y') := by
  rcases hx with rfl | ⟨field, hlacks, rfl⟩
  -- The first operand is the same: what is upheld of the second one matters if it is asked.
  · cases x' with
    | error err => exact .inl rfl
    | ok v =>
      by_cases hv : v = c.decisive
      · rw [hv, Connective.inTurn_decisive, Connective.inTurn_decisive]
        exact .inl rfl
      · rw [Connective.inTurn_of_ne _ hv, Connective.inTurn_of_ne _ hv]
        exact hy
  · exact .inr ⟨field, hlacks, rfl⟩

end Upholds

end Record

/-! ### Expressions and sets -/

variable {r r' : Record}

namespace Expr

/-- A comparison that finds its field finds the same value in a larger record. -/
theorem upholds_verdict (h : r.ExtendedBy r') (field : String) (op : CompareOp) (literal : Value) :
    r.Upholds (verdict r field op literal) (verdict r' field op literal) := by
  unfold verdict
  cases hv : r.get? field with
  | none => exact .inr ⟨field, hv, rfl⟩
  | some v =>
    obtain ⟨w, hw, halike⟩ := h field v hv
    rw [hw]
    exact .inl (verdictOn_of_alike halike field op literal).symm

/-- **More fields uphold every result of an expression.** -/
theorem upholds_of_extendedBy (h : r.ExtendedBy r') (e : Expr) :
    r.Upholds (e.evaluate r) (e.evaluate r') := by
  induction e using induction_join with
  | compare field op literal => exact upholds_verdict h field op literal
  | join c left right hl hr =>
    rw [evaluate_join, evaluate_join]
    exact hl.inTurn hr
  | not e he =>
    rw [evaluate_not, evaluate_not]
    exact he.map _

end Expr

namespace RuleSet

/-- **More fields uphold every result of a set.** -/
theorem upholds_of_extendedBy (h : r.ExtendedBy r') (s : RuleSet) :
    r.Upholds (s.evaluate r) (s.evaluate r') := by
  obtain ⟨rules, combine⟩ := s
  induction rules with
  | nil =>
    rw [evaluate_nil, evaluate_nil]
    exact .inl rfl
  | cons rule rules ih =>
    rw [evaluate_cons, evaluate_cons]
    exact (Expr.upholds_of_extendedBy h rule.expr).inTurn ih

/-- A rule that a report lists as satisfied stays in the list. -/
theorem passed_sublist_of_extendedBy (h : r.ExtendedBy r') (s : RuleSet) :
    (s.report r).passed.Sublist (s.report r').passed := by
  rw [passed_report, passed_report]
  refine (List.monotone_filter_right _ fun rule hrule => ?_).map _
  rw [decide_eq_true_iff] at hrule ⊢
  have hupholds := Expr.upholds_of_extendedBy h rule.expr
  rw [show rule.expr.evaluate r = .ok true from hrule] at hupholds
  exact hupholds.eq_ok

/-- **More fields never change a verdict.**  On a record that has all fields of another one with the
same values, expressions and sets of rules keep their verdicts, and a report keeps the rules that it
lists as satisfied.  Of the errors only those go away that say that the smaller record lacks a
field. -/
theorem verdict_of_extendedBy (h : r.ExtendedBy r') :
    (∀ (e : Expr) (v : Bool), e.evaluate r = .ok v → e.evaluate r' = .ok v) ∧
    (∀ (s : RuleSet) (v : Bool), s.evaluate r = .ok v → s.evaluate r' = .ok v) ∧
    (∀ s : RuleSet, (s.report r).passed.Sublist (s.report r').passed) ∧
    ∀ (e : Expr) (err : EvalError), e.evaluate r = .error err → e.evaluate r' = .error err ∨
      ∃ field, r.get? field = none ∧ err = .unknownField field := by
  refine ⟨fun e v hv => ?_, fun s v hv => ?_, passed_sublist_of_extendedBy h, fun e err herr => ?_⟩
  · have hupholds := Expr.upholds_of_extendedBy h e
    rw [hv] at hupholds
    exact hupholds.eq_ok
  · have hupholds := upholds_of_extendedBy h s
    rw [hv] at hupholds
    exact hupholds.eq_ok
  · rcases Expr.upholds_of_extendedBy h e with hsame | ⟨field, hlacks, hmissing⟩
    · rw [hsame]
      exact .inl herr
    · rw [herr] at hmissing
      exact .inr ⟨field, hlacks, Except.error.inj hmissing⟩

/-- A record without the field that an operand and a rule ask for, and the same record with a number
there, where a text is wanted.  The verdicts never rested on the field; the error is another one. -/
theorem verdict_of_added_field :
    let guest : Expr := .compare "member" .ne (.text "yes")
    let level : Expr := .compare "level" .eq (.text "senior")
    let s : RuleSet := ⟨[⟨"guest", "member != 'yes'", guest, {}⟩,
      ⟨"level", "level == 'senior'", level, {}⟩], .any⟩
    let small := Record.ofList [("member", .text "no")]
    let large := small.insert "level" (.number ⟨0⟩)
    small.ExtendedBy large ∧
      (Expr.and (.not guest) level).evaluate small = .ok false ∧
      (Expr.and (.not guest) level).evaluate large = .ok false ∧
      s.evaluate small = .ok true ∧ s.evaluate large = .ok true ∧
      (s.report small).passed.Sublist (s.report large).passed ∧
      level.evaluate small = .error (.unknownField "level") ∧
      level.evaluate large = .error (.typeMismatch "level" .text) := by
  intro guest level s small large
  have hlarge : small.ExtendedBy large := Record.extendedBy_insert (by decide +kernel) _
  have hexpr : (Expr.and (.not guest) level).evaluate small = .ok false := by decide +kernel
  have hset : s.evaluate small = .ok true := by decide +kernel
  obtain ⟨hexprs, hsets, hpassed, -⟩ := verdict_of_extendedBy hlarge
  exact ⟨hlarge, hexpr, hexprs _ _ hexpr, hset, hsets _ _ hset, hpassed s, by decide +kernel,
    by decide +kernel⟩

end RuleSet

end Eligibility
