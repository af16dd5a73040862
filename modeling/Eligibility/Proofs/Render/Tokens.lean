import Eligibility.Expr.Render
import Eligibility.Proofs.Token.Literals

/-!
# The tokens of a rendered expression

The parentheses of a rendered expression are those that the grammar asks for: read from its tokens,
every operand has the level of precedence at which its connective takes it, and a pair of
parentheses counts once among those open at once.

## Main definitions

* `Expr.tier e` : the level of precedence of the outermost connective of `e`.
* `Expr.groupTokens`, `Expr.tokens` : the tokens of the text of an expression.

## Main results

* `Expr.derives_tokens` : **these tokens say the expression**, with its nesting.
* `Expr.scans_render` : **the text is cut into these tokens**, if it can be written down.
-/

namespace Eligibility

namespace Expr

/-- The level of precedence of the outermost connective. -/
def tier : Expr → Tier
  | compare .. => .operand
  | not _ => .negation
  | and .. => .conjunction
  | or .. => .disjunction

/-- Tokens in parentheses where they are needed. -/
def groupTokens (needed : Bool) (ts : List Token) : List Token :=
  if needed then .lparen :: ts ++ [.rparen] else ts

/-- The tokens of the text of an expression. -/
def tokens : Expr → List Token
  | compare f op v => [.ident f, .op op, v.token]
  | and l r => groupTokens l.isOr l.tokens ++ .and :: groupTokens (r.isAnd || r.isOr) r.tokens
  | or l r => l.tokens ++ .or :: groupTokens r.isOr r.tokens
  | not e => .not :: groupTokens (e.isAnd || e.isOr) e.tokens

variable {e : Expr} {ts us : List Token} {n : Nat}

/-! ### The tokens say the expression -/

/-- A group may stand on every level. -/
theorem derives_of_operand (h : Derives .operand ts e n) (tier : Tier) : Derives tier ts e n := by
  cases tier with
  | operand => exact h
  | negation => exact .operand h
  | conjunction => exact .negation (.operand h)
  | disjunction => exact .conjunction (.negation (.operand h))

theorem derives_negation (h : Derives e.tier ts e n) (hfree : (e.isAnd || e.isOr) = false) :
    Derives .negation ts e n := by
  cases e with
  | compare f op v => exact .operand h
  | not e => exact h
  | and l r => cases hfree
  | or l r => cases hfree

theorem derives_conjunction (h : Derives e.tier ts e n) (hfree : e.isOr = false) :
    Derives .conjunction ts e n := by
  cases e with
  | compare f op v => exact .negation (derives_negation h rfl)
  | not e => exact .negation (derives_negation h rfl)
  | and l r => exact h
  | or l r => cases hfree

theorem derives_disjunction (h : Derives e.tier ts e n) : Derives .disjunction ts e n := by
  cases e with
  | compare f op v => exact .conjunction (derives_conjunction h rfl)
  | not e => exact .conjunction (derives_conjunction h rfl)
  | and l r => exact .conjunction (derives_conjunction h rfl)
  | or l r => exact h

/-- An operand has the level that its connective asks for, by itself or in parentheses. -/
theorem derives_groupTokens {needed : Bool} {tier : Tier} (h : Derives e.tier ts e n)
    (hfree : needed = false → Derives tier ts e n) :
    Derives tier (groupTokens needed ts) e (n + needed.toNat) := by
  cases needed with
  | false => exact hfree rfl
  | true => exact derives_of_operand (.group (derives_disjunction h)) tier

/-- **The tokens of an expression say it**, with as many parentheses and negations open at once as
its nesting says. -/
theorem derives_tokens (e : Expr) : Derives e.tier e.tokens e e.nesting := by
  induction e with
  | compare f op v =>
    cases v with
    | number x => exact .number f op x
    | text s => exact .text f op s
  | and l r hl hr =>
    have hleft := derives_groupTokens hl (derives_conjunction hl)
    have hright := derives_groupTokens hr (derives_negation hr)
    exact .and hleft hright
  | or l r hl hr =>
    have hright := derives_groupTokens hr (derives_conjunction hr)
    exact .or (derives_disjunction hl) hright
  | not e he =>
    have hoperand := derives_groupTokens he (derives_negation he)
    have hnesting : e.nesting + (e.isAnd || e.isOr).toNat + 1 = (not e).nesting := by
      rw [nesting]
      omega
    rw [← hnesting]
    exact .not hoperand

/-! ### The text is cut into the tokens -/

open Token

theorem scans_spaced {s t : String} (hs : Scans s.toList ts) (ht : Scans t.toList us) :
    Scans (s ++ " " ++ t).toList (ts ++ us) := by
  have hchars : (s ++ " " ++ t).toList = s.toList ++ ' ' :: t.toList := by
    rw [String.toList_append, String.toList_append, List.append_assoc]
    rfl
  rw [hchars]
  exact hs.space ht

theorem scans_group {s : String} (needed : Bool) (hs : Scans s.toList ts) :
    Scans (group needed s).toList (groupTokens needed ts) := by
  cases needed with
  | false => exact hs
  | true =>
    have hchars : (group true s).toList = '(' :: s.toList ++ [')'] := by
      rw [group_true, String.toList_append, String.toList_append]
      rfl
    rw [hchars]
    exact hs.group

theorem scans_keyword {word : String} {t : Token} {c : Char} {cs : List Char}
    (hword : word.toList = c :: cs) (hc : isWordStart c = true) (hcs : cs.all isWordChar = true)
    (ht : ofWord (c :: cs) = t) : Scans word.toList [t] := by
  rw [hword, ← ht]
  exact scans_word hc hcs

/-- **The text of an expression that can be written down is cut into its tokens.** -/
theorem scans_render (h : e.Representable) : Scans e.render.toList e.tokens := by
  induction e with
  | compare f op v =>
    exact scans_spaced (scans_spaced (scans_ident h.1) (scans_operator op)) (scans_literal h.2)
  | and l r hl hr =>
    have hword : Scans "AND".toList [.and] := scans_keyword rfl rfl rfl rfl
    have hright := scans_spaced hword (scans_group (r.isAnd || r.isOr) (hr h.2))
    have hboth := scans_spaced (scans_group l.isOr (hl h.1)) hright
    have hinfix : " AND " = " " ++ "AND" ++ " " := rfl
    rw [render, hinfix]
    simp only [String.append_assoc] at hboth ⊢
    exact hboth
  | or l r hl hr =>
    have hword : Scans "OR".toList [.or] := scans_keyword rfl rfl rfl rfl
    have hright := scans_spaced hword (scans_group r.isOr (hr h.2))
    have hboth := scans_spaced (hl h.1) hright
    have hinfix : " OR " = " " ++ "OR" ++ " " := rfl
    rw [render, hinfix]
    simp only [String.append_assoc] at hboth ⊢
    exact hboth
  | not e he =>
    have hword : Scans "NOT".toList [.not] := scans_keyword rfl rfl rfl rfl
    have hboth := scans_spaced hword (scans_group (e.isAnd || e.isOr) (he h))
    have hprefix : "NOT " = "NOT" ++ " " := rfl
    rw [render, hprefix]
    exact hboth

end Expr

end Eligibility
