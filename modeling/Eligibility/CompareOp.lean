import Eligibility.Binary64.Basic

/-!
# Comparison operators

## Main definitions

* `CompareOp` : the six operators.
* `CompareOp.symbol`, `CompareOp.ofSymbol?` : an operator and its spelling.
* `CompareOp.isOrdering` : the four that texts do not have.
* `CompareOp.holds` : the comparison of two numbers.
* `CompareOp.holdsText` : the comparison of two texts.
-/

namespace Eligibility

/-- A comparison operator. -/
inductive CompareOp
  /-- Equal to. -/
  | eq
  /-- Different from. -/
  | ne
  /-- Greater than. -/
  | gt
  /-- At least. -/
  | ge
  /-- Less than. -/
  | lt
  /-- At most. -/
  | le
  deriving DecidableEq

namespace CompareOp

/-- All operators. -/
def all : List CompareOp := [eq, ne, gt, ge, lt, le]

/-- The spelling of an operator. -/
def symbol : CompareOp → String
  | eq => "=="
  | ne => "!="
  | gt => ">"
  | ge => ">="
  | lt => "<"
  | le => "<="

/-- The operator with exactly this spelling. -/
def ofSymbol? (s : String) : Option CompareOp :=
  all.find? fun op => op.symbol == s

/-- Whether the operator asks which operand is larger. -/
def isOrdering : CompareOp → Bool
  | eq | ne => false
  | gt | ge | lt | le => true

/-- Comparison by value; with a NaN only `!=` holds. -/
def holds : CompareOp → Binary64 → Binary64 → Bool
  | eq, x, y => x.same y
  | ne, x, y => !x.same y
  | gt, x, y => y.less x
  | ge, x, y => y.atMost x
  | lt, x, y => x.less y
  | le, x, y => x.atMost y

/-- Comparison of texts, which knows only sameness and difference. -/
def holdsText : CompareOp → String → String → Bool
  | ne, s, t => s != t
  | _, s, t => s == t

@[simp] theorem ofSymbol?_symbol (op : CompareOp) : ofSymbol? op.symbol = some op := by
  cases op <;> decide

theorem mem_all (op : CompareOp) : op ∈ all := by
  cases op <;> decide

/-- The spelling determines the operator, and no other text is one. -/
theorem ofSymbol?_eq_some_iff {s : String} {op : CompareOp} :
    ofSymbol? s = some op ↔ s = op.symbol := by
  constructor
  · intro h
    have := List.find?_some h
    exact (eq_of_beq this).symm
  · rintro rfl
    exact ofSymbol?_symbol op

end CompareOp

end Eligibility
