import Eligibility.Expr.Basic
import Eligibility.Record

/-!
# Evaluation

A comparison reads one field of a record.  With a number literal the value has to be readable as a
number, with a text literal it has to be a text, and texts are not ordered.  The right operand of a
conjunction or disjunction is evaluated only if the left one leaves the verdict open.

## Main definitions

* `EvalError` : why a comparison has no verdict.
* `Expr.verdict` : the verdict of one comparison.
* `Expr.evaluate` : the verdict of an expression.
-/

namespace Eligibility

/-- Why a comparison has no verdict on a record. -/
inductive EvalError
  /-- The record lacks the field. -/
  | unknownField (field : String)
  /-- The value of the field cannot be read as the literal's kind. -/
  | typeMismatch (field : String) (expected : Kind)
  /-- The operator orders, and the literal is a text. -/
  | unsupportedOperator (field : String) (op : CompareOp)
  deriving DecidableEq

namespace EvalError

/-- The field that the error blames. -/
def field : EvalError → String
  | unknownField f => f
  | typeMismatch f _ => f
  | unsupportedOperator f _ => f

/-- The wording of the error. -/
def message : EvalError → String
  | unknownField f => "unknown field '" ++ f ++ "'"
  | typeMismatch f expected =>
    "type mismatch on field '" ++ f ++ "': expected a " ++ expected.name ++ " value"
  | unsupportedOperator f op =>
    "operator '" ++ op.symbol ++ "' cannot compare text on field '" ++ f ++ "'"

end EvalError

namespace Expr

/-- The verdict of a comparison of a value that the field has. -/
def verdictOn (field : String) (op : CompareOp) (actual : Value) :
    Value → Except EvalError Bool
  | .number x =>
    match actual.asNumber? with
    | some y => .ok (op.holds y x)
    | none => .error (.typeMismatch field .number)
  | .text s =>
    if op.isOrdering then .error (.unsupportedOperator field op)
    else
      match actual.asText? with
      | some t => .ok (op.holdsText t s)
      | none => .error (.typeMismatch field .text)

/-- The verdict of a comparison on a record. -/
def verdict (r : Record) (field : String) (op : CompareOp) (literal : Value) :
    Except EvalError Bool :=
  match r.get? field with
  | some actual => verdictOn field op actual literal
  | none => .error (.unknownField field)

/-- The verdict of an expression on a record. -/
def evaluate (r : Record) : Expr → Except EvalError Bool
  | compare field op literal => verdict r field op literal
  | and left right => do if ← left.evaluate r then right.evaluate r else return false
  | or left right => do if ← left.evaluate r then return true else right.evaluate r
  | not operand => do return !(← operand.evaluate r)

@[simp] theorem evaluate_compare (r : Record) (f : String) (op : CompareOp) (v : Value) :
    (compare f op v).evaluate r = verdict r f op v := rfl

theorem evaluate_and (r : Record) (a b : Expr) :
    (and a b).evaluate r = (a.evaluate r).bind fun v => if v then b.evaluate r else .ok false := by
  rw [evaluate]
  cases a.evaluate r with
  | error e => rfl
  | ok v => cases v <;> rfl

theorem evaluate_or (r : Record) (a b : Expr) :
    (or a b).evaluate r = (a.evaluate r).bind fun v => if v then .ok true else b.evaluate r := by
  rw [evaluate]
  cases a.evaluate r with
  | error e => rfl
  | ok v => cases v <;> rfl

theorem evaluate_not (r : Record) (a : Expr) :
    (not a).evaluate r = (a.evaluate r).map (!·) := by
  rw [evaluate]
  cases a.evaluate r <;> rfl

end Expr

end Eligibility
