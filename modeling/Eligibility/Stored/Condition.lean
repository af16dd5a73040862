import Eligibility.Expr.Basic

/-!
# Stored conditions

In storage a chain of one connective that leans to the left is one node with any number of
operands; every other grouping stays as it is.

## Main definitions

* `Condition` : the stored form of an expression.
* `Condition.ofExpr` : the stored form, with left-leaning chains flattened.
* `Condition.toExpr?` : the expression of a stored form, if no chain in it is empty.

## Main results

* `Condition.toExpr?_ofExpr` : flattening loses nothing.
-/

namespace Eligibility

/-- The stored form of an expression. -/
inductive Condition
  /-- A field compared with a literal. -/
  | compare (field : String) (op : CompareOp) (literal : Value)
  /-- All operands hold. -/
  | and (operands : List Condition)
  /-- At least one operand holds. -/
  | or (operands : List Condition)
  /-- The operand does not hold. -/
  | not (operand : Condition)

namespace Condition

/-- The node of a connective with the given operands. -/
def node : Connective → List Condition → Condition
  | .and, cs => and cs
  | .or, cs => or cs

/-- The operands of a node of the given connective. -/
def operands? : Connective → Condition → Option (List Condition)
  | .and, and cs => some cs
  | .or, or cs => some cs
  | _, _ => none

/-- Two conditions under a connective: if the left one is a node of that connective, the right one
becomes its last operand. -/
def join (k : Connective) (b c : Condition) : Condition :=
  match operands? k b with
  | some cs => node k (cs ++ [c])
  | none => node k [b, c]

/-- The stored form of an expression. -/
def ofExpr : Expr → Condition
  | .compare field op literal => compare field op literal
  | .and l r => join .and (ofExpr l) (ofExpr r)
  | .or l r => join .or (ofExpr l) (ofExpr r)
  | .not e => not (ofExpr e)

mutual

/-- The expression of a stored form. -/
def toExpr? : Condition → Option Expr
  | compare field op literal => some (.compare field op literal)
  | and cs => chain? .and cs
  | or cs => chain? .or cs
  | not c => (toExpr? c).map .not

/-- The expression of a chain, which leans to the left. -/
def chain? (k : Connective) : List Condition → Option Expr
  | [] => none
  | c :: cs => (toExpr? c).bind fun first => extend? k first cs

/-- The expression of a chain whose first operands are already joined. -/
def extend? (k : Connective) (left : Expr) : List Condition → Option Expr
  | [] => some left
  | c :: cs => (toExpr? c).bind fun right => extend? k (k.join left right) cs

end

/-- An operand at the end of a chain is joined last. -/
theorem extend?_append (k : Connective) (left : Expr) (cs : List Condition) (c : Condition) :
    extend? k left (cs ++ [c]) =
      (extend? k left cs).bind fun e => (toExpr? c).map (k.join e) := by
  induction cs generalizing left with
  | nil => cases h : toExpr? c <;> simp [extend?, h]
  | cons b cs ih => cases h : toExpr? b <;> simp [extend?, h, ih]

theorem chain?_append (k : Connective) (cs : List Condition) (c : Condition) (h : cs ≠ []) :
    chain? k (cs ++ [c]) = (chain? k cs).bind fun e => (toExpr? c).map (k.join e) := by
  cases cs with
  | nil => exact absurd rfl h
  | cons b cs => cases hb : toExpr? b <;> simp [chain?, hb, extend?_append]

@[simp] theorem toExpr?_node (k : Connective) (cs : List Condition) :
    toExpr? (node k cs) = chain? k cs := by
  cases k <;> rw [node, toExpr?]

theorem eq_node_of_operands? {k : Connective} {b : Condition} {cs : List Condition}
    (h : operands? k b = some cs) : b = node k cs := by
  unfold operands? at h
  split at h
  · rw [node, Option.some.inj h]
  · rw [node, Option.some.inj h]
  · cases h

/-- Joining conditions joins the expressions. -/
theorem toExpr?_join {k : Connective} {b c : Condition} {l r : Expr} (hb : toExpr? b = some l)
    (hc : toExpr? c = some r) : toExpr? (join k b c) = some (k.join l r) := by
  unfold join
  split
  · rename_i cs hcs
    rw [eq_node_of_operands? hcs, toExpr?_node] at hb
    have hne : cs ≠ [] := by
      rintro rfl
      rw [chain?] at hb
      cases hb
    rw [toExpr?_node, chain?_append k cs c hne, hb, hc]
    rfl
  · rw [toExpr?_node, chain?, hb, Option.bind_some, extend?, hc, Option.bind_some, extend?]

/-- **Flattening loses nothing.** -/
@[simp] theorem toExpr?_ofExpr (e : Expr) : toExpr? (ofExpr e) = some e := by
  induction e with
  | compare f op v => rw [ofExpr, toExpr?]
  | and l r hl hr => rw [ofExpr, toExpr?_join hl hr, Connective.join]
  | or l r hl hr => rw [ofExpr, toExpr?_join hl hr, Connective.join]
  | not e he => rw [ofExpr, toExpr?, he, Option.map_some]

end Condition

end Eligibility
