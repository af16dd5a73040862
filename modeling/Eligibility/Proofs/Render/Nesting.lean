import Eligibility.Proofs.Render.RoundTrip
import Mathlib.Order.MinMax

/-!
# Rendering never deepens nesting

Whoever writes an expression down has to write the parentheses that its place in the grammar asks
for, and these are all that its own text has.  Other layout, other quotes and more parentheses only
add to them.  So an expression that was read within some limits is read again from its own text
within the same limits, however tight they are.

## Main definitions

* `Tier.encloses tier e` : on this level of precedence `e` has to stand in parentheses.

## Main results

* `Derives.nesting_le` : **no tokens say an expression with less nesting than its own text has.**
* `Expr.parse_render_of_parse` : **what was read is read again from its own text.**
-/

namespace Eligibility

namespace Tier

/-- On this level of precedence the expression has to stand in parentheses.  A negation as an
operand stands in them as well, but no connective takes its operands on that level. -/
def encloses : Tier → Expr → Bool
  | disjunction, _ => false
  | conjunction, e => e.isOr
  | negation, e => e.isAnd || e.isOr
  | operand, e => e.isAnd || e.isOr

/-- The weaker of two levels asks for parentheses in fewer cases. -/
theorem encloses_conjunction_le (e : Expr) :
    (encloses conjunction e).toNat ≤ (encloses negation e).toNat := by
  show e.isOr.toNat ≤ (e.isAnd || e.isOr).toNat
  cases e.isAnd with
  | false => exact Nat.le_refl _
  | true => exact Bool.toNat_le _

end Tier

/-- **No tokens say an expression with less nesting than its own text has**, the parentheses
included that it needs on the level of precedence on which they say it. -/
theorem Derives.nesting_le {tier : Tier} {ts : List Token} {e : Expr} {n : Nat}
    (h : Derives tier ts e n) : e.nesting + (tier.encloses e).toNat ≤ n := by
  -- a level hands its bound on to the next weaker one, and a group pays for its own parentheses
  induction h with
  | number field op x => exact Nat.le_refl 0
  | text field op s => exact Nat.le_refl 0
  | group _ ih => exact Nat.add_le_add ih (Bool.toNat_le _)
  | operand _ ih => exact ih
  | @not ts e n _ ih =>
    have hnesting : (Expr.not e).nesting = 1 + (e.nesting + (Tier.encloses .negation e).toNat) := by
      rw [Expr.nesting, Nat.add_assoc]
      rfl
    rw [hnesting, Nat.add_comm n 1]
    exact Nat.add_le_add_left ih 1
  | @negation ts e n _ ih =>
    have hfewer := Tier.encloses_conjunction_le e
    omega
  | and _ _ ihl ihr => exact max_le_max ihl ihr
  | conjunction _ ih => exact Nat.le_trans (Nat.le_add_right _ _) ih
  | or _ _ ihl ihr => exact max_le_max ihl ihr

namespace Expr

variable {limits : Limits} {source : String} {e : Expr}

/-- **What was read is read again from its own text**, under the limits under which it was read.
All its names and literals can be written down, and the text it was read from has at least as many
parentheses and negations open at once as its own text. -/
theorem parse_render_of_parse (h : parse limits source = .ok e) :
    parse limits e.render = .ok e ∧ e.Representable ∧
      ∃ ts n us m, Token.scanText source = .ok ts ∧
        Derives .disjunction (ts.map Located.token) e n ∧
        Token.scanText e.render = .ok us ∧
        Derives .disjunction (us.map Located.token) e m ∧ m ≤ n := by
  obtain ⟨ts, n, hscan, hder, hn, hheight⟩ := parse_eq_ok_iff.1 h
  have hrepresentable := hder.representable (Token.writable_of_scan hscan)
  have hnesting : e.nesting ≤ n := hder.nesting_le
  have hrender := parse_render_of_representable hrepresentable hheight (Nat.le_trans hnesting hn)
  obtain ⟨us, m, hscan', hder', -, -⟩ := parse_eq_ok_iff.1 hrender
  obtain ⟨-, rfl⟩ := eq_of_derives_render hrepresentable hscan' hder'
  exact ⟨hrender, hrepresentable, ts, n, us, _, hscan, hder, hscan', hder', hnesting⟩

/-- A text with needless parentheses, a quote inside a literal and a numeral that is not the
shortest, which reaches both limits. -/
theorem parse_render_of_needless_group :
    ∃ e, parse ⟨4, 3⟩ "(not\t((a == \"it's\") Or b > -01.50))" = .ok e ∧
      e.render = "NOT (a == \"it's\" OR b > -1.5)" ∧ parse ⟨4, 3⟩ e.render = .ok e := by
  let e : Expr := .not (.or (.compare "a" .eq (.text "it's"))
    (.compare "b" .gt (.number ⟨0xBFF8000000000000⟩)))
  have hparse : parse ⟨4, 3⟩ "(not\t((a == \"it's\") Or b > -01.50))" = .ok e := by
    decide +kernel
  exact ⟨e, hparse, by decide +kernel, (parse_render_of_parse hparse).1⟩

end Expr

end Eligibility
