import Eligibility.RuleSet.Basic

/-!
# A set of rules as one expression

A set evaluates its rules one after the other, an expression its operands from the left down to the
comparisons.  Both stop at the first verdict that decides, and at the first error.  So a set is the
chain of its expressions, whichever of its rules decides or fails.

## Main definitions

* `Connective.decisive` : the verdict of an operand that decides for the others.
* `Connective.inTurn` : the result of two operands, the second of which may not be asked.
* `Combine.connective` : the connective that combines verdicts in the same way.

## Main results

* `Connective.inTurn_eq_ok_iff`, `Connective.inTurn_eq_error_iff` : what two operands in turn give.
* `Connective.inTurn_assoc` : three operands in turn have no inner grouping.
* `Expr.induction_join` : induction over expressions with one case for the two connectives.
* `Expr.evaluate_join`, `RuleSet.evaluate_cons` : operands and rules are evaluated in turn.
* `RuleSet.evaluate_eq_chain` : **a set of rules is a chain.**
-/

namespace Eligibility

/-- The verdict of an operand that decides for the others. -/
def Connective.decisive : Connective → Bool
  | and => false
  | or => true

/-- The connective that combines verdicts in the same way. -/
def Combine.connective : Combine → Connective
  | all => .and
  | any => .or

/-! ### Two operands in turn -/

namespace Connective

/-- The result of two operands in turn: the second one is asked if the first one has a verdict that
does not decide. -/
def inTurn (c : Connective) (x y : Except EvalError Bool) : Except EvalError Bool :=
  x.bind fun v => if v = c.decisive then .ok v else y

variable (c : Connective) (x y z : Except EvalError Bool)

theorem not_decisive_ne : (!c.decisive) ≠ c.decisive := by
  cases c <;> decide

@[simp] theorem inTurn_error (err : EvalError) : c.inTurn (.error err) y = .error err := rfl

@[simp] theorem inTurn_decisive : c.inTurn (.ok c.decisive) y = .ok c.decisive :=
  if_pos rfl

variable {c} in
theorem inTurn_of_ne {v : Bool} (h : v ≠ c.decisive) : c.inTurn (.ok v) y = y :=
  if_neg h

@[simp] theorem inTurn_not_decisive : c.inTurn x (.ok !c.decisive) = x := by
  cases x with
  | error err => rfl
  | ok v => cases v <;> cases c <;> rfl

variable {c x y} in
/-- Two operands have a verdict if the first one decides, or the second one is asked and has it. -/
theorem inTurn_eq_ok_iff {v : Bool} : c.inTurn x y = .ok v ↔
    x = .ok v ∧ v = c.decisive ∨ x = .ok (!c.decisive) ∧ y = .ok v := by
  cases x with
  | error err => simp
  | ok w => cases w <;> cases c <;> simp [inTurn, Except.bind, decisive, eq_comm]

variable {c x y} in
/-- Two operands fail if the first one does, or the second one is asked and fails. -/
theorem inTurn_eq_error_iff {err : EvalError} : c.inTurn x y = .error err ↔
    x = .error err ∨ x = .ok (!c.decisive) ∧ y = .error err := by
  cases x with
  | error err' => simp
  | ok w => cases w <;> cases c <;> simp [inTurn, Except.bind, decisive]

/-- Three operands in turn have no inner grouping. -/
theorem inTurn_assoc : c.inTurn (c.inTurn x y) z = c.inTurn x (c.inTurn y z) := by
  cases x with
  | error err => rfl
  | ok v =>
    by_cases hv : v = c.decisive
    · rw [hv, inTurn_decisive, inTurn_decisive, inTurn_decisive]
    · rw [inTurn_of_ne _ hv, inTurn_of_ne _ hv]

end Connective

/-! ### Expressions and sets in turn -/

/-- Induction over expressions with one case for the two connectives. -/
@[elab_as_elim]
theorem Expr.induction_join {motive : Expr → Prop}
    (compare : ∀ field op literal, motive (.compare field op literal))
    (join : ∀ (c : Connective) (l r : Expr), motive l → motive r → motive (c.join l r))
    (not : ∀ e, motive e → motive (.not e)) (e : Expr) : motive e := by
  induction e with
  | compare field op literal => exact compare field op literal
  | and l r hl hr => exact join .and l r hl hr
  | or l r hl hr => exact join .or l r hl hr
  | not e he => exact not e he

/-- The right operand is evaluated if the left one does not decide. -/
theorem Expr.evaluate_join (c : Connective) (l r : Expr) (record : Record) :
    (c.join l r).evaluate record = c.inTurn (l.evaluate record) (r.evaluate record) := by
  cases c with
  | and =>
    show (Expr.and l r).evaluate record = _
    rw [evaluate_and, Connective.inTurn]
    congr 1
    funext v
    cases v <;> rfl
  | or =>
    show (Expr.or l r).evaluate record = _
    rw [evaluate_or, Connective.inTurn]
    congr 1
    funext v
    cases v <;> rfl

namespace RuleSet

variable {record : Record}

@[simp] theorem evaluate_nil (combine : Combine) :
    evaluate ⟨[], combine⟩ record = .ok !combine.connective.decisive := by
  cases combine <;> rfl

/-- The later rules are evaluated if the first one does not decide. -/
theorem evaluate_cons (combine : Combine) (rule : Rule) (rules : List Rule) :
    evaluate ⟨rule :: rules, combine⟩ record =
      combine.connective.inTurn (rule.evaluate record) (evaluate ⟨rules, combine⟩ record) := by
  cases combine with
  | all =>
    show (rule :: rules).allM (·.evaluate record) = _
    rw [List.allM]
    cases rule.evaluate record with
    | error e => rfl
    | ok v => cases v <;> rfl
  | any =>
    show (rule :: rules).anyM (·.evaluate record) = _
    rw [List.anyM]
    cases rule.evaluate record with
    | error e => rfl
    | ok v => cases v <;> rfl

/-- A chain is evaluated as its first operand and then, if that does not decide, as a set of rules
with the other operands. -/
theorem evaluate_foldl_join (combine : Combine) (first : Expr) (rules : List Rule) :
    ((rules.map Rule.expr).foldl combine.connective.join first).evaluate record =
      combine.connective.inTurn (first.evaluate record) (evaluate ⟨rules, combine⟩ record) := by
  -- the chain leans to the left, so the next rule goes into the first operand
  induction rules generalizing first with
  | nil => rw [List.map_nil, List.foldl_nil, evaluate_nil, Connective.inTurn_not_decisive]
  | cons rule rules ih =>
    rw [List.map_cons, List.foldl_cons, ih, Expr.evaluate_join, Connective.inTurn_assoc,
      evaluate_cons]
    rfl

/-- **A set of rules is a chain.**  If all rules have to hold, it is evaluated as the conjunction of
their expressions that leans to the left, and if one of them has to, as the disjunction; the
verdict is the same and so is the error. -/
theorem evaluate_eq_chain (rule : Rule) (rules : List Rule) (record : Record) :
    evaluate ⟨rule :: rules, .all⟩ record =
        ((rules.map Rule.expr).foldl Expr.and rule.expr).evaluate record ∧
      evaluate ⟨rule :: rules, .any⟩ record =
        ((rules.map Rule.expr).foldl Expr.or rule.expr).evaluate record := by
  constructor
  · rw [evaluate_cons]
    exact (evaluate_foldl_join .all rule.expr rules).symm
  · rw [evaluate_cons]
    exact (evaluate_foldl_join .any rule.expr rules).symm

end RuleSet

end Eligibility
