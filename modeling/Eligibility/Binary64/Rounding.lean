import Eligibility.Binary64.Basic

/-!
# Rounding to double precision

A non-negative ratio of integers is rounded to the nearest number, ties going to the even
fraction, and to infinity when it lies at least half a unit beyond the largest finite number.
The computation is in natural numbers: measured in units of `2 ^ (-1074)` every finite number is
`m * 2 ^ p` with `m < 2 ^ 53`, and its magnitude bits are `p * 2 ^ 52 + m`, also when rounding
has carried `m` up to `2 ^ 53`.

## Main definitions

* `roundHalfEven num den` : the integer nearest to `num / den`.
* `Binary64.roundRatio num den` : the magnitude bits nearest to `num / den`.
* `Binary64.ofRatio`, `Binary64.ofInt` : the nearest number.

## Main results

* `Binary64.roundRatio_scaled` : a ratio equal to a finite magnitude rounds to that magnitude.
-/

namespace Eligibility

-- Powers of natural numbers are the core library's in every context.
attribute [local instance (100000)] instPowNat

/-- The integer nearest to `num / den`; a half goes to the even neighbour. -/
def roundHalfEven (num den : Nat) : Nat :=
  let quotient := num / den
  let remainder := num % den
  if 2 * remainder < den then quotient
  else if den < 2 * remainder then quotient + 1
  else quotient + quotient % 2

/-- An exact quotient is its own rounding. -/
theorem roundHalfEven_mul_right (m : Nat) {den : Nat} (h : 0 < den) :
    roundHalfEven (m * den) den = m := by
  simp [roundHalfEven, h]

namespace Binary64

/-- The magnitude bits of the number nearest to `num / den`. -/
def roundRatio (num den : Nat) : Nat :=
  let units := num * one
  let p := (units / den).log2 - 52
  min infinityMagnitude (p * binade + roundHalfEven units (den * 2 ^ p))

/-- The number nearest to `num / den`, with the given sign. -/
def ofRatio (negative : Bool) (num den : Nat) : Binary64 :=
  ofSignMagnitude negative (roundRatio num den)

/-- The number nearest to an integer. -/
def ofInt (n : Int) : Binary64 :=
  ofRatio (decide (n < 0)) n.natAbs 1

/-- A magnitude is `m` units of `2 ^ p`, with `p` as small as `m < 2 ^ 53` allows. -/
theorem exists_scaled_eq (x : Binary64) :
    ∃ m p, x.scaled = m * 2 ^ p ∧ x.magnitude = p * binade + m ∧ m < 2 * binade ∧
      (binade ≤ m ∨ p = 0) := by
  have hlt := x.fraction_lt
  have hmag := x.exponent_mul_add_fraction
  by_cases h : x.exponent = 0
  · refine ⟨x.fraction, 0, ?_, ?_, by omega, .inr rfl⟩
    · rw [scaled_of_exponent_eq_zero h, Nat.pow_zero, Nat.mul_one]
    · rw [← hmag, h]
  · refine ⟨binade + x.fraction, x.exponent - 1, scaled_of_exponent_ne_zero h, ?_, by omega,
      .inl (by omega)⟩
    simp only [binade] at *
    omega

/-- The exponent that rounding chooses for `m` units of `2 ^ p` is `p`. -/
theorem log2_mul_two_pow_sub {m p : Nat} (hm : m < 2 * binade) (hp : binade ≤ m ∨ p = 0) :
    (m * 2 ^ p).log2 - 52 = p := by
  have hm : m < 2 ^ (53 : Nat) := by
    simp only [binade] at hm
    omega
  rcases hp with hm' | rfl
  · have hpos : 0 < 2 ^ p := Nat.pow_pos (by decide)
    have hne : m * 2 ^ p ≠ 0 := by
      have : 0 < m := by omega
      exact Nat.ne_of_gt (Nat.mul_pos this hpos)
    have h1 : (m * 2 ^ p).log2 < 53 + p := by
      rw [Nat.log2_lt hne, Nat.pow_add]
      exact Nat.mul_lt_mul_of_pos_right hm hpos
    have h2 : 52 + p ≤ (m * 2 ^ p).log2 := by
      rw [Nat.le_log2 hne, Nat.pow_add]
      exact Nat.mul_le_mul_right _ hm'
    omega
  · by_cases hne : m = 0
    · simp [hne]
    · have : m.log2 < 53 := (Nat.log2_lt hne).2 hm
      simp only [Nat.pow_zero, Nat.mul_one]
      omega

/-- **A value of the format is its own rounding.** -/
theorem roundRatio_scaled {x : Binary64} (hx : x.isFinite = true) {num den : Nat}
    (hden : 0 < den) (h : num * one = x.scaled * den) :
    roundRatio num den = x.magnitude := by
  obtain ⟨m, p, hs, hmag, hm, hp⟩ := exists_scaled_eq x
  have hquot : num * one / den = m * 2 ^ p := by
    rw [h, hs, Nat.mul_div_cancel _ hden]
  have hpow : 0 < den * 2 ^ p := Nat.mul_pos hden (Nat.pow_pos (by decide))
  have hround : roundHalfEven (num * one) (den * 2 ^ p) = m := by
    rw [h, hs, Nat.mul_assoc, Nat.mul_comm (2 ^ p) den]
    exact roundHalfEven_mul_right m hpow
  simp only [roundRatio, hquot, log2_mul_two_pow_sub hm hp, hround, ← hmag]
  simp only [isFinite, decide_eq_true_eq] at hx
  exact Nat.min_eq_right (Nat.le_of_lt hx)

end Binary64

end Eligibility
