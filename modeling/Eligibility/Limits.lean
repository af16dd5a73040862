/-!
# Limits on rules

Two bounds keep the text of a rule within what every stage can handle: one on how many parentheses
and negations may be open at once, one on the height of the expression.

## Main definitions

* `Limits` : the two bounds, with their defaults.
* `Limits.Within` : one pair of bounds is at least as strict as another.
-/

namespace Eligibility

/-- The bounds under which a text is read as an expression. -/
structure Limits where
  /-- How many parentheses and negations may be open at once. -/
  maxDepth : UInt64 := 64
  /-- How high the expression may be. -/
  maxHeight : UInt64 := 512
  deriving DecidableEq

namespace Limits

instance : Inhabited Limits := ⟨{}⟩

/-- Both bounds of `a` are at most those of `b`. -/
def Within (a b : Limits) : Prop :=
  a.maxDepth ≤ b.maxDepth ∧ a.maxHeight ≤ b.maxHeight

end Limits

end Eligibility
