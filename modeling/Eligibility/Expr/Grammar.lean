import Eligibility.Expr.Basic
import Eligibility.Token.Lexer

/-!
# The grammar of expressions

    disjunction ::= conjunction | disjunction OR conjunction
    conjunction ::= negation | conjunction AND negation
    negation    ::= operand | NOT negation
    operand     ::= field operator literal | ( disjunction )

A group leaves no trace in the expression.  A derivation carries the greatest number of parentheses
and negations that are open at once in it.

## Main definitions

* `Tier` : the four levels of precedence.
* `Derives tier ts e n` : the tokens `ts` say `e` on the given level, with `n` as that number.
* `Token.IsWord`, `Value.Representable`, `Expr.Representable` : the names and literals that a text
  can contain, and the expressions made of them.
-/

namespace Eligibility

/-- The levels of precedence, from the weakest. -/
inductive Tier
  /-- Chains of disjunctions. -/
  | disjunction
  /-- Chains of conjunctions. -/
  | conjunction
  /-- Negations. -/
  | negation
  /-- Comparisons and groups. -/
  | operand
  deriving DecidableEq

/-- What a list of tokens says on a level of precedence, and how many parentheses and negations are
open at once in it. -/
inductive Derives : Tier → List Token → Expr → Nat → Prop
  /-- A comparison with a number. -/
  | number (field : String) (op : CompareOp) (x : Binary64) :
    Derives .operand [.ident field, .op op, .number x] (.compare field op (.number x)) 0
  /-- A comparison with a text. -/
  | text (field : String) (op : CompareOp) (s : String) :
    Derives .operand [.ident field, .op op, .text s] (.compare field op (.text s)) 0
  /-- A group in parentheses. -/
  | group {ts : List Token} {e : Expr} {n : Nat} :
    Derives .disjunction ts e n → Derives .operand (.lparen :: ts ++ [.rparen]) e (n + 1)
  /-- An operand without negation. -/
  | operand {ts : List Token} {e : Expr} {n : Nat} :
    Derives .operand ts e n → Derives .negation ts e n
  /-- A negation. -/
  | not {ts : List Token} {e : Expr} {n : Nat} :
    Derives .negation ts e n → Derives .negation (.not :: ts) (.not e) (n + 1)
  /-- A conjunction of one operand. -/
  | negation {ts : List Token} {e : Expr} {n : Nat} :
    Derives .negation ts e n → Derives .conjunction ts e n
  /-- A longer conjunction. -/
  | and {ts us : List Token} {l r : Expr} {m n : Nat} :
    Derives .conjunction ts l m → Derives .negation us r n →
      Derives .conjunction (ts ++ .and :: us) (.and l r) (max m n)
  /-- A disjunction of one operand. -/
  | conjunction {ts : List Token} {e : Expr} {n : Nat} :
    Derives .conjunction ts e n → Derives .disjunction ts e n
  /-- A longer disjunction. -/
  | or {ts us : List Token} {l r : Expr} {m n : Nat} :
    Derives .disjunction ts l m → Derives .conjunction us r n →
      Derives .disjunction (ts ++ .or :: us) (.or l r) (max m n)

/-- No expression is said by no tokens. -/
theorem Derives.ne_nil {tier : Tier} {ts : List Token} {e : Expr} {n : Nat}
    (h : Derives tier ts e n) : ts ≠ [] := by
  induction h with
  | number | text | group | not | and | or => simp
  | operand _ ih | negation _ ih | conjunction _ ih => exact ih

/-! ### What a text can contain -/

/-- A name that is read as a field name: a word other than a keyword. -/
def Token.IsWord (name : String) : Prop :=
  ∃ c cs, name.toList = c :: cs ∧ isWordStart c = true ∧ cs.all isWordChar = true ∧
    ofWord (c :: cs) = .ident name

/-- A value that can be written as a literal: a finite number, or a text that leaves one of the two
quotes free. -/
def Value.Representable : Value → Prop
  | number x => x.isFinite = true
  | text s => ¬('\'' ∈ s.toList ∧ '"' ∈ s.toList)

/-- An expression whose names and literals can all be written. -/
def Expr.Representable : Expr → Prop
  | compare field _ literal => Token.IsWord field ∧ literal.Representable
  | and l r => l.Representable ∧ r.Representable
  | or l r => l.Representable ∧ r.Representable
  | not e => e.Representable

end Eligibility
