import Eligibility.Proofs.Text.Trim
import Eligibility.Proofs.Token.Lexemes

/-!
# Numbers that arrive as text

A form submits a number as a text, with blanks around it or without.  Read as a number, the text of
a finite number is that number: a numeral without an exponent denotes its decimal fraction, and the
fraction that is written for a number rounds to it.

## Main definitions

* `Value.Submits v x` : the value is a text that is read as the number, possibly between blanks.

## Main results

* `Decimal.roundScaled_zero` : without an exponent, scaling is rounding.
* `Binary64.ofNumeral?_numeral` : what a numeral without an exponent denotes.
* `Value.submits_text` : **a finite number is submitted by its own text.**
-/

namespace Eligibility

-- Powers of natural numbers are the core library's in every context.
attribute [local instance (100000)] instPowNat

/-! ### Numerals without an exponent -/

/-- A ratio of less than half of the smallest unit rounds to zero. -/
theorem Binary64.roundRatio_eq_zero {num den : Nat} (h : 2 * (num * one) < den) :
    roundRatio num den = 0 := by
  unfold roundRatio
  generalize num * one = units at h ⊢
  have hlt : units < den := by omega
  simp [roundHalfEven, Nat.div_eq_of_lt hlt, Nat.mod_eq_of_lt hlt, h, Nat.log2_zero]

/-- A fraction with enough places for its units is less than half of one in `scale`. -/
theorem Decimal.two_mul_units_lt {units places scale k : Nat} (hpos : 0 < scale)
    (hscale : 4 * scale ≤ 10 ^ k) (hplaces : units.log2 + k ≤ places) :
    2 * (units * scale) < 10 ^ places := by
  have hunits : units < 2 ^ (units.log2 + 1) := Nat.lt_log2_self
  have hmul : units * scale < 2 ^ (units.log2 + 1) * scale :=
    Nat.mul_lt_mul_of_pos_right hunits hpos
  calc 2 * (units * scale) < 2 * (2 ^ (units.log2 + 1) * scale) := by omega
    _ = 2 ^ units.log2 * (4 * scale) := by grind
    _ ≤ 10 ^ units.log2 * 10 ^ k := Nat.mul_le_mul (Nat.pow_le_pow_left (by decide) _) hscale
    _ = 10 ^ (units.log2 + k) := (Nat.pow_add ..).symm
    _ ≤ 10 ^ places := Nat.pow_le_pow_right (by decide) hplaces

theorem Binary64.one_pos : 0 < one := by
  decide +kernel

/-- How many places those are where one in `scale` is the smallest unit of the numbers. -/
theorem Binary64.four_mul_one_le : 4 * one ≤ 10 ^ (326 : Nat) := by
  decide +kernel

/-- **Without an exponent, scaling is rounding.**  The fractions for which no power is computed are
smaller than half of the smallest unit. -/
theorem Decimal.roundScaled_zero (negative : Bool) (d : Decimal) :
    roundScaled negative d 0 = d.round negative := by
  unfold roundScaled round Binary64.ofRatio
  dsimp only
  split
  · next htiny =>
    rw [Binary64.roundRatio_eq_zero]
    rcases htiny with hzero | hplaces
    · rw [hzero, Nat.zero_mul]
      exact Nat.pow_pos (by decide)
    · exact two_mul_units_lt Binary64.one_pos Binary64.four_mul_one_le (by omega)
  · rw [if_neg (by omega)]
    simp

namespace Binary64

variable {negative : Bool} {whole fraction : List Char}

/-- The sign of a numeral stands in front of its first digit. -/
theorem readSign_numeral (hne : whole ≠ []) (hwhole : whole.all Char.isDigit = true) :
    readSign (Lexeme.numeral negative whole fraction) =
      (negative, whole ++ if fraction = [] then [] else '.' :: fraction) := by
  cases negative with
  | true => rfl
  | false =>
    obtain ⟨d, ds, rfl⟩ := List.exists_cons_of_ne_nil hne
    have hd : d.isDigit = true := by
      rw [List.all_cons, Bool.and_eq_true] at hwhole
      exact hwhole.1
    have hminus : d ≠ '-' := Token.ne_of_class hd rfl
    have hplus : d ≠ '+' := Token.ne_of_class hd rfl
    simp only [Lexeme.numeral, Bool.false_eq_true, if_false, List.nil_append, List.cons_append]
    unfold readSign
    split
    · next heq => exact absurd (List.cons.inj heq).1 hminus
    · next heq => exact absurd (List.cons.inj heq).1 hplus
    · rfl

/-- **A numeral without an exponent denotes its decimal fraction, rounded.** -/
theorem ofNumeral?_numeral (hne : whole ≠ []) (hwhole : whole.all Char.isDigit = true)
    (hfraction : fraction.all Char.isDigit = true) :
    ofNumeral? (Lexeme.numeral negative whole fraction) =
      some ((Decimal.ofDigits whole fraction).round negative) := by
  have hdigits : whole ++ fraction ≠ [] := by simp [hne]
  have hstop : ∀ c ∈ (if fraction = [] then [] else '.' :: fraction).head?, c.isDigit = false := by
    intro c hc
    split at hc
    · cases hc
    · obtain rfl := Option.some.inj hc
      rfl
  obtain ⟨htake, hdrop⟩ := Token.takeWhile_append_of_stop hwhole hstop
  unfold ofNumeral?
  rw [readSign_numeral hne hwhole]
  simp only [htake, hdrop]
  by_cases hnil : fraction = []
  · simp [hnil, hne, readExponent?, Decimal.roundScaled_zero]
  · have hall := List.all_eq_true.1 hfraction
    simp only [if_neg hnil, List.takeWhile_eq_self_iff.2 hall, List.dropWhile_eq_nil_iff.2 hall,
      if_neg hdigits, readExponent?, Option.map_some, Decimal.roundScaled_zero]

end Binary64

namespace Value

/-- The value is a text that is read as the number, possibly between blanks. -/
def Submits (v : Value) (x : Binary64) : Prop :=
  ∃ before s after, Text.IsBlank before ∧ Text.IsBlank after ∧ (text s).asNumber? = some x ∧
    v = text (before ++ s ++ after)

/-- Blanks around a text do not matter where it is read as a number. -/
theorem asNumber?_text_append {before after : String} (hbefore : Text.IsBlank before)
    (hafter : Text.IsBlank after) (s : String) :
    (text (before ++ s ++ after)).asNumber? = (text s).asNumber? := by
  rw [asNumber?, asNumber?, Text.trimChars_padded hbefore hafter]

theorem Submits.asNumber?_eq {v : Value} {x : Binary64} (h : v.Submits x) :
    v.asNumber? = some x := by
  obtain ⟨before, s, after, hbefore, hafter, hs, rfl⟩ := h
  rw [asNumber?_text_append hbefore hafter, hs]

/-- The text of a finite number is read as the number. -/
theorem asNumber?_text_text {x : Binary64} (hx : x.isFinite = true) :
    (text x.text).asNumber? = some x := by
  have hwhole := x.shortest.all_isDigit_wholeDigits
  have hfraction := x.shortest.all_isDigit_fractionDigits
  have hnumeral := Binary64.toList_text hx
  have htrim : Text.trimChars x.text.toList = x.text.toList := by
    rw [hnumeral]
    refine Text.trimChars_eq_self fun c hc => Lexeme.isBlank_of_isPlain ?_
    exact List.all_eq_true.1 (Lexeme.all_isPlain_numeral hwhole hfraction) c hc
  rw [asNumber?, htrim, hnumeral, Binary64.ofNumeral?_numeral x.shortest.wholeDigits_ne_nil hwhole
    hfraction, Decimal.ofDigits_digits, Binary64.round_shortest hx, Option.filter_some, if_pos hx]

/-- **A finite number is submitted by its own text**, with or without blanks around it. -/
theorem submits_text {x : Binary64} (hx : x.isFinite = true) {before after : String}
    (hbefore : Text.IsBlank before) (hafter : Text.IsBlank after) :
    (text (before ++ x.text ++ after)).Submits x :=
  ⟨before, x.text, after, hbefore, hafter, asNumber?_text_text hx, rfl⟩

end Value

end Eligibility
