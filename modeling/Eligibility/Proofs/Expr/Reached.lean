import Eligibility.Proofs.Except
import Eligibility.Proofs.Expr.Comparisons

/-!
# The comparisons that evaluation comes to

Evaluation goes from left to right and leaves out the operands that cannot change the verdict, so it
comes to some of the comparisons only.  An expression fails exactly if one of these does, and there
is no other error than theirs.

A comparison with a number is meant for finite numbers.  A text that says no finite number is
refused; but a number that a record holds is taken as it is, and so the verdict may rest on an
infinity or a NaN.  This happens exactly on the records that hold such a number.

## Main definitions

* `Expr.Reaches record e c` : evaluation of the expression on the record comes to the comparison.
* `Value.ReadsFinite` : a value is or says a finite number.
* `Record.FiniteNumbers` : the numbers of a record are finite.

## Main results

* `Expr.evaluate_eq_error_iff` : **an expression fails if a comparison does that evaluation comes
  to.**
* `Expr.get?_eq_none_of_evaluate`, `Expr.exists_number_of_evaluate` : where a field is missing, and
  where a text.
* `Expr.mismatch_iff_finiteNumbers` : **which records keep all but finite numbers out of a
  verdict.**
-/

namespace Eligibility

namespace Expr

/-- Evaluation of the expression on the record comes to the comparison. -/
inductive Reaches (record : Record) : Expr → Comparison → Prop
  /-- A comparison comes to itself. -/
  | compare (field : String) (op : CompareOp) (literal : Value) :
    Reaches record (.compare field op literal) ⟨field, op, literal⟩
  /-- The left operand is always evaluated. -/
  | left (k : Connective) {l r : Expr} {c : Comparison} :
    Reaches record l c → Reaches record (k.join l r) c
  /-- The right operand is evaluated if the left one has a verdict that does not decide. -/
  | right (k : Connective) {l r : Expr} {c : Comparison} :
    l.evaluate record = .ok (!k.decisive) → Reaches record r c → Reaches record (k.join l r) c
  /-- The operand of a negation is always evaluated. -/
  | not {e : Expr} {c : Comparison} : Reaches record e c → Reaches record (.not e) c

variable {record : Record} {e : Expr} {c : Comparison} {err : EvalError} {field : String}

/-- The error of a comparison that evaluation comes to is the error of the expression. -/
theorem Reaches.evaluate_eq (h : e.Reaches record c) (herr : c.verdict record = .error err) :
    e.evaluate record = .error err := by
  induction h with
  | compare field op literal => exact herr
  | left k _ ih => rw [evaluate_join, ih herr, Connective.inTurn_error]
  | right k hleft _ ih =>
    rw [evaluate_join, Connective.inTurn_eq_error_iff]
    exact .inr ⟨hleft, ih herr⟩
  | not _ ih => rw [evaluate_not, Except.map_eq_error_iff, ih herr]

/-- **An expression fails exactly with the error of a comparison that evaluation comes to.** -/
theorem evaluate_eq_error_iff :
    e.evaluate record = .error err ↔ ∃ c, e.Reaches record c ∧ c.verdict record = .error err := by
  constructor
  · intro h
    induction e using induction_join with
    | compare field op literal => exact ⟨_, .compare field op literal, h⟩
    | join k l r hl hr =>
      rw [evaluate_join, Connective.inTurn_eq_error_iff] at h
      rcases h with h | ⟨hleft, h⟩
      · obtain ⟨c, hc, herr⟩ := hl h
        exact ⟨c, hc.left k, herr⟩
      · obtain ⟨c, hc, herr⟩ := hr h
        exact ⟨c, hc.right k hleft, herr⟩
    | not e he =>
      rw [evaluate_not, Except.map_eq_error_iff] at h
      obtain ⟨c, hc, herr⟩ := he h
      exact ⟨c, hc.not, herr⟩
  · rintro ⟨c, hc, herr⟩
    exact hc.evaluate_eq herr

/-! ### What an error says of the record -/

/-- The field that an expression does not find is missing. -/
theorem get?_eq_none_of_evaluate (h : e.evaluate record = .error (.unknownField field)) :
    record.get? field = none := by
  obtain ⟨c, -, herr⟩ := evaluate_eq_error_iff.1 h
  cases Comparison.verdict_eq_error_iff.1 herr with
  | missing hget => exact hget

/-- Where an expression finds no text there is a number. -/
theorem exists_number_of_evaluate (h : e.evaluate record = .error (.typeMismatch field .text)) :
    ∃ x, record.get? field = some (.number x) := by
  obtain ⟨c, -, herr⟩ := evaluate_eq_error_iff.1 h
  cases Comparison.verdict_eq_error_iff.1 herr with
  | noText _ hget _ => exact ⟨_, hget⟩

end Expr

/-! ### Finite numbers -/

/-- The value is a finite number, or a text that says one when it is trimmed. -/
def Value.ReadsFinite : Value → Prop
  | number x => x.isFinite = true
  | text s => ∃ x, Binary64.ofNumeral? (Text.trimChars s.toList) = some x ∧ x.isFinite = true

/-- A text is refused as a number exactly if it says no finite one. -/
theorem Value.asNumber?_text_eq_none_iff {s : String} :
    (text s).asNumber? = none ↔ ¬(text s).ReadsFinite := by
  simp [asNumber?, ReadsFinite, Option.filter_eq_none_iff]

/-- The numbers of the record are finite. -/
def Record.FiniteNumbers (record : Record) : Prop :=
  ∀ field x, record.get? field = some (.number x) → x.isFinite = true

namespace Expr

/-- **Which records keep all but finite numbers out of a verdict.**  Whenever evaluation comes to a
comparison with a number and the value there is a text that says no finite number, the type mismatch
is reported.  For values of either kind this holds exactly on the records whose numbers are
finite. -/
theorem mismatch_iff_finiteNumbers (record : Record) :
    (∀ (e : Expr) (c : Comparison) (x : Binary64) (s : String), e.Reaches record c →
      c.literal = .number x → record.get? c.field = some (.text s) → ¬(Value.text s).ReadsFinite →
        e.evaluate record = .error (.typeMismatch c.field .number)) ∧
    ((∀ (e : Expr) (c : Comparison) (x : Binary64) (v : Value), e.Reaches record c →
      c.literal = .number x → record.get? c.field = some v → ¬v.ReadsFinite →
        e.evaluate record = .error (.typeMismatch c.field .number)) ↔ record.FiniteNumbers) := by
  have htext : ∀ (e : Expr) (c : Comparison) (x : Binary64) (s : String), e.Reaches record c →
      c.literal = .number x → record.get? c.field = some (.text s) → ¬(Value.text s).ReadsFinite →
        e.evaluate record = .error (.typeMismatch c.field .number) := by
    intro e c x s hreach hc hget hs
    have hfails := Comparison.Fails.noNumber hc hget (Value.asNumber?_text_eq_none_iff.2 hs)
    exact hreach.evaluate_eq (Comparison.verdict_eq_error_iff.2 hfails)
  refine ⟨htext, ?_, ?_⟩
  · intro h field x hget
    by_contra hx
    let c : Comparison := ⟨field, .eq, .number x⟩
    have hmismatch : c.verdict record = .error (.typeMismatch field .number) :=
      h _ c x _ (.compare ..) rfl hget hx
    -- a number is read as it is, so the comparison does not fail
    cases Comparison.verdict_eq_error_iff.1 hmismatch with
    | noNumber _ hget' hread =>
      rw [hget] at hget'
      obtain rfl := Option.some.inj hget'
      cases hread
  · intro hfinite e c x v hreach hc hget hv
    cases v with
    | number y => exact absurd (hfinite c.field y hget) hv
    | text s => exact htext e c x s hreach hc hget hv

/-- A NaN that decides. -/
theorem evaluate_of_nan :
    let nan : Binary64 := ⟨0x7FF8000000000000⟩
    let one : Binary64 := ⟨0x3FF0000000000000⟩
    let record := Record.empty.insert "a" (.number nan)
    let e : Expr := .compare "a" .ne (.number one)
    e.Reaches record ⟨"a", .ne, .number one⟩ ∧ record.get? "a" = some (.number nan) ∧
      ¬(Value.number nan).ReadsFinite ∧ e.evaluate record = .ok true := by
  intro nan one record e
  have hget : record.get? "a" = some (.number nan) := Record.get?_insert_self ..
  have hnan : ¬nan.isFinite = true := by decide +kernel
  refine ⟨.compare .., hget, hnan, ?_⟩
  decide +kernel

end Expr

end Eligibility
