import Eligibility.CompareOp
import Eligibility.Value

/-!
# Expressions

An expression combines comparisons of one field with one literal by conjunction, disjunction and
negation.

## Main definitions

* `Expr` : the expressions.
* `Expr.height` : the height of the tree; a comparison has height one.
* `Expr.fields` : the fields compared, from left to right, with repetitions.
* `Expr.same` : equality in which number literals are equal by value.
* `Connective`, `Connective.join` : conjunction and disjunction, as one family.
-/

namespace Eligibility

/-- An expression over the fields of a record. -/
inductive Expr
  /-- A field compared with a literal. -/
  | compare (field : String) (op : CompareOp) (literal : Value)
  /-- Both operands hold. -/
  | and (left right : Expr)
  /-- At least one operand holds. -/
  | or (left right : Expr)
  /-- The operand does not hold. -/
  | not (operand : Expr)
  deriving DecidableEq

namespace Expr

/-- The height of the tree. -/
def height : Expr → Nat
  | compare .. => 1
  | and l r => 1 + max l.height r.height
  | or l r => 1 + max l.height r.height
  | not e => 1 + e.height

/-- The fields that are compared, from left to right, with repetitions. -/
def fields : Expr → List String
  | compare f _ _ => [f]
  | and l r => l.fields ++ r.fields
  | or l r => l.fields ++ r.fields
  | not e => e.fields

/-- Whether the outermost connective is a disjunction. -/
def isOr : Expr → Bool
  | or .. => true
  | _ => false

/-- Whether the outermost connective is a conjunction. -/
def isAnd : Expr → Bool
  | and .. => true
  | _ => false

/-- Equality of trees, number literals being compared by value. -/
def same : Expr → Expr → Bool
  | compare f op v, compare g op' w => f == g && op == op' && v.same w
  | and l r, and l' r' => l.same l' && r.same r'
  | or l r, or l' r' => l.same l' && r.same r'
  | not e, not e' => e.same e'
  | _, _ => false

@[simp] theorem height_compare (f : String) (op : CompareOp) (v : Value) :
    (compare f op v).height = 1 := rfl

@[simp] theorem height_and (l r : Expr) : (and l r).height = 1 + max l.height r.height := rfl

@[simp] theorem height_or (l r : Expr) : (or l r).height = 1 + max l.height r.height := rfl

@[simp] theorem height_not (e : Expr) : (not e).height = 1 + e.height := rfl

@[simp] theorem fields_compare (f : String) (op : CompareOp) (v : Value) :
    (compare f op v).fields = [f] := rfl

@[simp] theorem fields_and (l r : Expr) : (and l r).fields = l.fields ++ r.fields := rfl

@[simp] theorem fields_or (l r : Expr) : (or l r).fields = l.fields ++ r.fields := rfl

@[simp] theorem fields_not (e : Expr) : (not e).fields = e.fields := rfl

theorem height_pos (e : Expr) : 0 < e.height := by
  cases e <;> simp only [height] <;> omega

end Expr

/-! ### The connectives of chains -/

/-- The two connectives that form chains. -/
inductive Connective
  /-- Conjunction. -/
  | and
  /-- Disjunction. -/
  | or
  deriving DecidableEq

/-- The expression with this outermost connective. -/
def Connective.join : Connective → Expr → Expr → Expr
  | and, l, r => .and l r
  | or, l, r => .or l r

theorem Connective.height_join (c : Connective) (l r : Expr) :
    (c.join l r).height = 1 + max l.height r.height := by
  cases c <;> rfl

end Eligibility
