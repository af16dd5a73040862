import Eligibility.Proofs.RuleSet.Chain

/-!
# The comparisons of an expression

An expression reads a record through its comparisons only.  They stand in a row from left to right,
and two records on which each of them has the same result give the expression the same result.

## Main definitions

* `Comparison`, `Comparison.verdict` : a field, an operator and a literal, and the result on a
  record.
* `Comparison.Fails` : why a comparison has no verdict.
* `Expr.comparisons` : the comparisons of an expression, from left to right.

## Main results

* `Comparison.verdict_eq_error_iff` : the error of a comparison says why it has no verdict.
* `Expr.fields_eq_map` : the fields of an expression are the ones it compares.
* `Expr.evaluate_congr` : **the comparisons determine the result.**
-/

namespace Eligibility

/-- The comparison of a field with a literal. -/
structure Comparison where
  /-- The field. -/
  field : String
  /-- The operator. -/
  op : CompareOp
  /-- The literal. -/
  literal : Value
  deriving DecidableEq

/-- The result of a comparison on a record. -/
def Comparison.verdict (c : Comparison) (record : Record) : Except EvalError Bool :=
  Expr.verdict record c.field c.op c.literal

/-! ### Why a comparison fails -/

/-- Why a comparison has no verdict on a record. -/
inductive Comparison.Fails (record : Record) (c : Comparison) : EvalError → Prop
  /-- The record lacks the field. -/
  | missing : record.get? c.field = none → Fails record c (.unknownField c.field)
  /-- The literal is a number, and the value cannot be read as one. -/
  | noNumber {x : Binary64} {v : Value} : c.literal = .number x → record.get? c.field = some v →
    v.asNumber? = none → Fails record c (.typeMismatch c.field .number)
  /-- The literal is a text, and texts are not ordered. -/
  | ordering {s : String} {v : Value} : c.literal = .text s → record.get? c.field = some v →
    c.op.isOrdering = true → Fails record c (.unsupportedOperator c.field c.op)
  /-- The literal is a text, and the value is a number. -/
  | noText {s : String} {x : Binary64} : c.literal = .text s →
    record.get? c.field = some (.number x) → c.op.isOrdering = false →
      Fails record c (.typeMismatch c.field .text)

/-- **The error of a comparison says why it has no verdict.** -/
theorem Comparison.verdict_eq_error_iff {c : Comparison} {record : Record} {err : EvalError} :
    c.verdict record = .error err ↔ c.Fails record err := by
  obtain ⟨field, op, literal⟩ := c
  constructor
  · intro h
    unfold verdict Expr.verdict at h
    cases hget : record.get? field with
    | none =>
      rw [hget] at h
      obtain rfl := Except.error.inj h
      exact .missing hget
    | some v =>
      rw [hget] at h
      cases literal with
      | number x =>
        cases hread : v.asNumber? with
        | some y => simp [Expr.verdictOn, hread] at h
        | none =>
          obtain rfl : .typeMismatch field .number = err := by simpa [Expr.verdictOn, hread] using h
          exact .noNumber rfl hget hread
      | text s =>
        cases hop : op.isOrdering with
        | true =>
          obtain rfl : .unsupportedOperator field op = err := by
            simpa [Expr.verdictOn, hop] using h
          exact .ordering rfl hget hop
        | false =>
          cases v with
          | number x =>
            obtain rfl : .typeMismatch field .text = err := by simpa [Expr.verdictOn, hop] using h
            exact .noText rfl hget hop
          | text t => simp [Expr.verdictOn, hop] at h
  · rintro (hget | ⟨rfl, hget, hread⟩ | ⟨rfl, hget, hop⟩ | ⟨rfl, hget, hop⟩)
    · simp [verdict, Expr.verdict, hget]
    · simp [verdict, Expr.verdict, hget, Expr.verdictOn, hread]
    · simp [verdict, Expr.verdict, hget, Expr.verdictOn, hop]
    · simp [verdict, Expr.verdict, hget, Expr.verdictOn, hop]

/-! ### The comparisons of an expression -/

namespace Expr

/-- The comparisons of an expression, from left to right. -/
def comparisons : Expr → List Comparison
  | compare field op literal => [⟨field, op, literal⟩]
  | and l r => l.comparisons ++ r.comparisons
  | or l r => l.comparisons ++ r.comparisons
  | not e => e.comparisons

@[simp] theorem comparisons_compare (field : String) (op : CompareOp) (literal : Value) :
    (compare field op literal).comparisons = [⟨field, op, literal⟩] := rfl

@[simp] theorem comparisons_join (c : Connective) (l r : Expr) :
    (c.join l r).comparisons = l.comparisons ++ r.comparisons := by
  cases c <;> rfl

@[simp] theorem comparisons_not (e : Expr) : (not e).comparisons = e.comparisons := rfl

theorem fields_join (c : Connective) (l r : Expr) :
    (c.join l r).fields = l.fields ++ r.fields := by
  cases c <;> rfl

/-- The fields of an expression are the ones it compares. -/
theorem fields_eq_map (e : Expr) : e.fields = e.comparisons.map Comparison.field := by
  induction e using induction_join with
  | compare => rfl
  | join c l r hl hr => rw [fields_join, comparisons_join, List.map_append, hl, hr]
  | not e he => exact he

theorem mem_fields_of_mem {e : Expr} {c : Comparison} (h : c ∈ e.comparisons) :
    c.field ∈ e.fields := by
  rw [fields_eq_map]
  exact List.mem_map_of_mem h

variable {r r' : Record}

/-- **The comparisons determine the result.** -/
theorem evaluate_congr {e : Expr} (h : ∀ c ∈ e.comparisons, c.verdict r = c.verdict r') :
    e.evaluate r = e.evaluate r' := by
  induction e using induction_join with
  | compare field op literal => exact h _ List.mem_cons_self
  | join c left right hl hr =>
    rw [comparisons_join, List.forall_mem_append] at h
    rw [evaluate_join, evaluate_join, hl h.1, hr h.2]
  | not e he => rw [evaluate_not, evaluate_not, he h]

end Expr

end Eligibility
