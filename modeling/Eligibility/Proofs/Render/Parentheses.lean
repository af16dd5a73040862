import Eligibility.Proofs.Grammar.Prefixes
import Eligibility.Proofs.Render.Nesting

/-!
# No text has fewer parentheses

Each pair of parentheses in the text of an expression stands where the grammar leaves no other way
to say that expression.  Every other text of it has the pair in the same place, and may have more.
The same holds for how many parentheses and negations are open at once, which can be told from the
tokens of a text without reading them as an expression.

## Main definitions

* `Token.peakFrom opened ts`, `Token.peak ts` : the greatest number of parentheses and negations
  that are open at once in `ts`.

## Main results

* `Derives.count_lparen_le` : **no tokens say an expression with fewer parentheses than its own text
  has.**
* `Derives.peak_eq` : the nesting of a derivation is what is open at once in its tokens.
* `Expr.parentheses_le_of_parse` : **no text that is read as an expression has fewer parentheses, or
  fewer open at once, than the expression's own text.**
-/

namespace Eligibility

/-! ### How much is open at once -/

namespace Token

/-- The greatest number of parentheses and negations that are open at once, from the beginning of
the tokens to their end, if `opened` are open before them. -/
def peakFrom (opened : List Token) : List Token → Nat
  | [] => opened.length
  | t :: ts => max opened.length (peakFrom (mark opened t) ts)

/-- The greatest number of parentheses and negations that are open at once. -/
def peak (ts : List Token) : Nat := peakFrom [] ts

theorem length_le_peakFrom (opened ts : List Token) : opened.length ≤ peakFrom opened ts := by
  cases ts with
  | nil => exact Nat.le_refl _
  | cons t ts => exact Nat.le_max_left _ _

theorem peakFrom_append (opened ts us : List Token) : peakFrom opened (ts ++ us) =
    max (peakFrom opened ts) (peakFrom (ts.foldl mark opened) us) := by
  induction ts generalizing opened with
  | nil => exact (Nat.max_eq_right (length_le_peakFrom opened us)).symm
  | cons t ts ih =>
    rw [List.cons_append, peakFrom, peakFrom, ih, List.foldl_cons, Nat.max_assoc]

/-- A literal completes an operand, so that nothing more is open behind it. -/
theorem peakFrom_comparison (opened : List Token) (field : String) (op : CompareOp) (v : Value) :
    peakFrom opened [.ident field, .op op, v.token] = opened.length := by
  have hle : (mark opened v.token).length ≤ opened.length := by
    cases v <;> exact (List.dropWhile_sublist _).length_le
  show max opened.length (max opened.length (max opened.length (mark opened v.token).length)) = _
  omega

end Token

/-- The tokens of an expression add its nesting to what is open before them.  A chain closes the
negations before it at its first operand already, so there must not be any. -/
theorem Derives.peakFrom {tier : Tier} {ts opened : List Token} {e : Expr} {n : Nat}
    (h : Derives tier ts e n)
    (hopened : tier = .conjunction ∨ tier = .disjunction → opened.dropWhile (· = .not) = opened) :
    Token.peakFrom opened ts = opened.length + n := by
  induction h generalizing opened with
  | number field op x => exact Token.peakFrom_comparison opened field op (.number x)
  | text field op s => exact Token.peakFrom_comparison opened field op (.text s)
  | @group ts e n h ih =>
    have hts : Token.peakFrom (.lparen :: opened) ts = opened.length + 1 + n := ih fun _ => rfl
    have hend : (opened.dropWhile (· = .not)).length ≤ opened.length :=
      (List.dropWhile_sublist _).length_le
    have hpair : Token.peakFrom opened (.lparen :: ts ++ [.rparen]) = max opened.length
        (max (Token.peakFrom (.lparen :: opened) ts)
          (max (opened.length + 1) (opened.dropWhile (· = .not)).length)) := by
      rw [List.cons_append, Token.peakFrom,
        show Token.mark opened .lparen = .lparen :: opened from rfl, Token.peakFrom_append,
        h.foldl_mark]
      rfl
    rw [hpair, hts]
    omega
  | operand _ ih => exact ih nofun
  | @not ts e n _ ih =>
    have hts : Token.peakFrom (.not :: opened) ts = opened.length + 1 + n := ih nofun
    rw [Token.peakFrom, show Token.mark opened .not = .not :: opened from rfl, hts]
    omega
  | negation _ ih => exact ih nofun
  | @and ts us l r m n hl _ ihl ihr =>
    have hnone := hopened (.inl rfl)
    rw [Token.peakFrom_append, hl.foldl_mark, hnone, ihl fun _ => hnone, Token.peakFrom,
      show Token.mark opened .and = opened from rfl, ihr nofun]
    omega
  | conjunction _ ih => exact ih fun _ => hopened (.inr rfl)
  | @or ts us l r m n hl _ ihl ihr =>
    have hnone := hopened (.inr rfl)
    rw [Token.peakFrom_append, hl.foldl_mark, hnone, ihl fun _ => hnone, Token.peakFrom,
      show Token.mark opened .or = opened from rfl, ihr fun _ => hnone]
    omega

/-- **The nesting of a derivation is what is open at once in its tokens.** -/
theorem Derives.peak_eq {ts : List Token} {e : Expr} {n : Nat} (h : Derives .disjunction ts e n) :
    Token.peak ts = n := by
  rw [Token.peak, h.peakFrom fun _ => rfl, List.length_nil, Nat.zero_add]

/-! ### How many parentheses there are -/

theorem Expr.count_lparen_groupTokens (needed : Bool) (ts : List Token) :
    (groupTokens needed ts).count .lparen = ts.count .lparen + needed.toNat := by
  cases needed with
  | false => rfl
  | true => simp [groupTokens]

/-- A connective takes its operands with the parentheses that the levels of precedence ask for on
which it takes them, and stands in none itself on its own level. -/
theorem Expr.count_lparen_join_le (c : Connective) {l r : Expr} {ts us : List Token}
    (hl : l.tokens.count .lparen + (c.tier.encloses l).toNat ≤ ts.count .lparen)
    (hr : r.tokens.count .lparen + (c.operandTier.encloses r).toNat ≤ us.count .lparen) :
    (c.join l r).tokens.count .lparen + (c.tier.encloses (c.join l r)).toNat ≤
      (ts ++ c.token :: us).count .lparen := by
  have htokens : (c.join l r).tokens = groupTokens (c.tier.encloses l) l.tokens ++
      c.token :: groupTokens (c.operandTier.encloses r) r.tokens := by
    cases c <;> rfl
  have hfree : c.tier.encloses (c.join l r) = false := by
    cases c <;> rfl
  have hne : c.token ≠ .lparen := by
    cases c <;> exact Token.noConfusion
  rw [htokens, hfree, List.count_append, List.count_append, List.count_cons_of_ne hne,
    List.count_cons_of_ne hne, count_lparen_groupTokens, count_lparen_groupTokens, Bool.toNat_false,
    Nat.add_zero]
  exact Nat.add_le_add hl hr

theorem Expr.count_lparen_not (e : Expr) : (Expr.not e).tokens.count .lparen =
    e.tokens.count .lparen + (Tier.encloses .negation e).toNat := by
  rw [tokens, List.count_cons_of_ne Token.noConfusion, count_lparen_groupTokens]
  rfl

/-- **No tokens say an expression with fewer parentheses than its own text has**, the ones included
that it needs on the level of precedence on which they say it. -/
theorem Derives.count_lparen_le {tier : Tier} {ts : List Token} {e : Expr} {n : Nat}
    (h : Derives tier ts e n) :
    e.tokens.count .lparen + (tier.encloses e).toNat ≤ ts.count .lparen := by
  -- a level hands its bound on to the next weaker one, and a group pays for its own parenthesis
  induction h with
  | number | text => exact Nat.le_refl _
  | @group ts e n _ ih =>
    have hpair : (Token.lparen :: ts ++ [Token.rparen]).count .lparen = ts.count .lparen + 1 :=
      Expr.count_lparen_groupTokens true ts
    rw [hpair]
    exact Nat.add_le_add ih (Bool.toNat_le _)
  | operand _ ih => exact ih
  | @not ts e n _ ih =>
    rw [Expr.count_lparen_not, List.count_cons_of_ne Token.noConfusion]
    exact ih
  | @negation ts e n _ ih =>
    have hfewer := Tier.encloses_conjunction_le e
    omega
  | and _ _ ihl ihr => exact Expr.count_lparen_join_le .and ihl ihr
  | conjunction _ ih => exact Nat.le_trans (Nat.le_add_right _ _) ih
  | or _ _ ihl ihr => exact Expr.count_lparen_join_le .or ihl ihr

/-! ### Whole texts -/

namespace Expr

variable {limits : Limits} {source : String} {e : Expr}

/-- **No text that is read as an expression has fewer parentheses than the expression's own text**,
nor fewer parentheses and negations that are open at once.  Parentheses inside literals do not
count. -/
theorem parentheses_le_of_parse (h : parse limits source = .ok e) :
    ∃ ts us, Token.scanText source = .ok ts ∧ Token.scanText e.render = .ok us ∧
      (us.map Located.token).count .lparen ≤ (ts.map Located.token).count .lparen ∧
      Token.peak (us.map Located.token) ≤ Token.peak (ts.map Located.token) := by
  obtain ⟨ts, n, hscan, hder, -, -⟩ := parse_eq_ok_iff.1 h
  obtain ⟨us, hus, hrender⟩ :=
    (scans_render (hder.representable (Token.writable_of_scan hscan))).scanText_eq
  refine ⟨ts, us, hscan, hrender, ?_, ?_⟩
  · rw [hus]
    exact hder.count_lparen_le
  · rw [hus, hder.peak_eq, (derives_disjunction (derives_tokens e)).peak_eq]
    exact hder.nesting_le

/-- Two of three pairs of parentheses are needless, and so is the nesting that they make, while
those in the literal are none. -/
theorem parentheses_of_needless_groups :
    let source := "((a == '((' AND (b > 'c' OR d == 'e')))"
    ∃ e, parse ⟨64, 512⟩ source = .ok e ∧
      e.render = "a == \"((\" AND (b > \"c\" OR d == \"e\")" ∧
      ∃ ts us, Token.scanText source = .ok ts ∧ Token.scanText e.render = .ok us ∧
        (us.map Located.token).count .lparen ≤ (ts.map Located.token).count .lparen ∧
        Token.peak (us.map Located.token) ≤ Token.peak (ts.map Located.token) := by
  intro source
  let e : Expr := .and (.compare "a" .eq (.text "(("))
    (.or (.compare "b" .gt (.text "c")) (.compare "d" .eq (.text "e")))
  have hparse : parse ⟨64, 512⟩ source = .ok e := by decide +kernel
  exact ⟨e, hparse, by decide +kernel, parentheses_le_of_parse hparse⟩

end Expr

end Eligibility
