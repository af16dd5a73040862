import Eligibility.Proofs.Grammar.Unambiguous
import Mathlib.Data.List.DropRight

/-!
# Beginnings of sentences

A list of tokens that says an expression is a sentence.  What may come next after a beginning of
one depends on where in the grammar it ends; wherever it ends before an expression on some level of
precedence, that expression can be followed by something that completes the sentence.

Which parentheses and negations are open after a token can be told from the tokens alone.  A
complete operand closes the negations before it and leaves everything else open.

## Main definitions

* `Sentence`, `Viable` : the lists of tokens that say an expression, and their beginnings.
* `Awaits tier ts` : the tokens end where an expression on that level has to start.
* `Token.openAfter` : the parentheses and negations that are open after some tokens.

## Main results

* `Awaits.viable` : **every such beginning is completed by some tokens.**
* `Derives.foldl_mark` : an expression closes the negations before it, and nothing else.
-/

namespace Eligibility

/-- The tokens say an expression. -/
def Sentence (ts : List Token) : Prop :=
  ∃ e n, Derives .disjunction ts e n

/-- The tokens are the beginning of a sentence. -/
def Viable (ts : List Token) : Prop :=
  ∃ us, Sentence (ts ++ us)

/-- The tokens end where an expression on the given level of precedence has to start. -/
inductive Awaits : Tier → List Token → Prop
  /-- At the very beginning. -/
  | start : Awaits .disjunction []
  /-- Behind an opening parenthesis. -/
  | lparen {ts : List Token} : Awaits .operand ts → Awaits .disjunction (ts ++ [.lparen])
  /-- At the first operand of a chain. -/
  | first (c : Connective) {ts : List Token} : Awaits c.tier ts → Awaits c.operandTier ts
  /-- At a later operand of a chain, behind the earlier ones. -/
  | next (c : Connective) {ts us : List Token} {e : Expr} {n : Nat} : Awaits c.tier ts →
    Derives c.tier us e n → Awaits c.operandTier (ts ++ (us ++ [c.token]))
  /-- At an operand without a negation. -/
  | operand {ts : List Token} : Awaits .negation ts → Awaits .operand ts
  /-- Behind a negation. -/
  | not {ts : List Token} : Awaits .negation ts → Awaits .negation (ts ++ [.not])

section

variable {tier : Tier} {ts us : List Token} {e : Expr} {n : Nat}

theorem Viable.of_append (h : Viable (ts ++ us)) : Viable ts := by
  obtain ⟨vs, hvs⟩ := h
  rw [List.append_assoc] at hvs
  exact ⟨us ++ vs, hvs⟩

/-- **An expression where one has to start is the beginning of a sentence.** -/
theorem Awaits.viable (h : Awaits tier ts) (hus : Derives tier us e n) : Viable (ts ++ us) := by
  -- the expression is a part of a larger one, for which there is one step less to go outwards
  induction h generalizing us e n with
  | start => exact ⟨[], e, n, by rwa [List.nil_append, List.append_nil]⟩
  | @lparen ts _ ih =>
    have hgroup := ih hus.group
    rw [← List.append_assoc] at hgroup
    rw [List.append_assoc]
    exact hgroup.of_append
  | first c _ ih => exact ih hus.single
  | next c _ hleft ih =>
    have hchain := ih (hleft.join hus)
    rwa [List.append_cons, ← List.append_assoc] at hchain
  | operand _ ih => exact ih hus.operand
  | not _ ih =>
    rw [List.append_assoc]
    exact ih hus.not

end

/-! ### Open parentheses and negations -/

namespace Token

/-- The parentheses and negations that are open, the innermost first, after one more token.  A
literal or a closing parenthesis completes an operand, and with it the negations before it. -/
def mark (opened : List Token) : Token → List Token
  | .not => .not :: opened
  | .lparen => .lparen :: opened
  | .rparen => opened.tail.dropWhile (· = .not)
  | .number _ | .text _ => opened.dropWhile (· = .not)
  | .ident _ | .op _ | .and | .or => opened

/-- The parentheses and negations that are open after some tokens, the innermost first. -/
def openAfter (ts : List Token) : List Token :=
  ts.foldl mark []

theorem openAfter_append (ts us : List Token) :
    openAfter (ts ++ us) = us.foldl mark (openAfter ts) :=
  List.foldl_append

end Token

/-- **An expression closes the negations before it, and nothing else.** -/
theorem Derives.foldl_mark {tier : Tier} {ts : List Token} {e : Expr} {n : Nat}
    (h : Derives tier ts e n) (opened : List Token) :
    ts.foldl Token.mark opened = opened.dropWhile (· = .not) := by
  induction h generalizing opened with
  | number | text => rfl
  | group _ ih =>
    rw [List.cons_append, List.foldl_cons, List.foldl_append, ih]
    rfl
  | operand _ ih | negation _ ih | conjunction _ ih => exact ih opened
  | not _ ih =>
    rw [List.foldl_cons, ih]
    exact List.dropWhile_cons_of_pos rfl
  | and _ _ ihl ihr | or _ _ ihl ihr =>
    rw [List.foldl_append, List.foldl_cons, ihl, ihr]
    exact List.dropWhile_idempotent _ opened

end Eligibility
