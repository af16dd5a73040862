import Eligibility.Expr.Basic

/-!
# The text of an expression

An expression is written with the parentheses that reading it back needs and no others: chains of
one connective that lean to the left stay flat, while a chain on the right, a disjunction under a
conjunction and any chain under a negation are put in parentheses.

## Main definitions

* `Expr.render e` : the text.
* `Expr.nesting e` : how many parentheses and negations are open at once in that text.
-/

namespace Eligibility

namespace Expr

/-- A text in parentheses where they are needed. -/
def group (needed : Bool) (s : String) : String :=
  if needed then "(" ++ s ++ ")" else s

/-- The text of an expression. -/
def render : Expr → String
  | compare f op v => f ++ " " ++ op.symbol ++ " " ++ v.render
  | and l r => group l.isOr l.render ++ " AND " ++ group (r.isAnd || r.isOr) r.render
  | or l r => l.render ++ " OR " ++ group r.isOr r.render
  | not e => "NOT " ++ group (e.isAnd || e.isOr) e.render

/-- The greatest number of parentheses and negations that are open at once in the text of an
expression. -/
def nesting : Expr → Nat
  | compare .. => 0
  | and l r => max (l.nesting + l.isOr.toNat) (r.nesting + (r.isAnd || r.isOr).toNat)
  | or l r => max l.nesting (r.nesting + r.isOr.toNat)
  | not e => 1 + e.nesting + (e.isAnd || e.isOr).toNat

@[simp] theorem group_true (s : String) : group true s = "(" ++ s ++ ")" := rfl

@[simp] theorem group_false (s : String) : group false s = s := rfl

end Expr

end Eligibility
