import Eligibility.Binary64.Rounding

/-!
# Decimal fractions and their text

A non-negative decimal fraction is a number of units of its last place.  Its text is positional:
the digits of the whole part and, if there are places, a point and exactly that many digits.

## Main definitions

* `Decimal` : `units / 10 ^ places`.
* `Decimal.chars` : the positional text.
* `Decimal.ofDigits whole fraction` : the fraction that the digits on either side of a point denote.
* `Decimal.round`, `Decimal.roundScaled` : the nearest number, also under a power of ten.
* `Binary64.ofNumeral?` : the reading of a free-standing numeral such as `-12.5e3`.

## Main results

* `Decimal.ofDigits_digits` : the digits of a fraction denote it.
-/

namespace Eligibility

-- Powers of natural numbers are the core library's in every context.
attribute [local instance (100000)] instPowNat

/-- The decimal fraction `units / 10 ^ places`. -/
structure Decimal where
  /-- How many units of the last place. -/
  units : Nat
  /-- How many places follow the point. -/
  places : Nat
  deriving DecidableEq

namespace Decimal

/-- The digits before the point. -/
def wholeDigits (d : Decimal) : List Char :=
  Nat.toDigits 10 (d.units / 10 ^ d.places)

/-- The digits after the point, as many as there are places. -/
def fractionDigits (d : Decimal) : List Char :=
  if d.places = 0 then []
  else (Nat.toDigits 10 (d.units % 10 ^ d.places)).leftpad d.places '0'

/-- The positional text: a point is written only if places follow it. -/
def chars (d : Decimal) : List Char :=
  if d.places = 0 then d.wholeDigits else d.wholeDigits ++ '.' :: d.fractionDigits

/-- The fraction that the digits before and after a point denote. -/
def ofDigits (whole fraction : List Char) : Decimal :=
  ⟨Nat.ofDigitChars 10 (whole ++ fraction) 0, fraction.length⟩

/-- The number nearest to a decimal fraction, with the given sign. -/
def round (negative : Bool) (d : Decimal) : Binary64 :=
  Binary64.ofRatio negative d.units (10 ^ d.places)

/-- The number nearest to `d * 10 ^ exponent`.  Beyond the exponents at which every fraction of
this many units is infinite, or rounds to zero, no power is computed. -/
def roundScaled (negative : Bool) (d : Decimal) (exponent : Int) : Binary64 :=
  let e := exponent - d.places
  if d.units = 0 ∨ e + d.units.log2 + 1 < -324 then .ofSignMagnitude negative 0
  else if 309 < e then .ofSignMagnitude negative Binary64.infinityMagnitude
  else .ofRatio negative (d.units * 10 ^ e.toNat) (10 ^ (-e).toNat)

/-- With `places` places there are as many digits after the point. -/
theorem length_fractionDigits (d : Decimal) : d.fractionDigits.length = d.places := by
  by_cases h : d.places = 0
  · simp [fractionDigits, h]
  · have hlt : d.units % 10 ^ d.places < 10 ^ d.places := Nat.mod_lt _ (Nat.pow_pos (by decide))
    have hle := (Nat.length_toDigits_le_iff (by decide) (Nat.pos_of_ne_zero h)).2 hlt
    simp only [fractionDigits, h, ↓reduceIte, List.length_leftpad]
    omega

/-- The digits of a fraction denote it. -/
theorem ofDigits_digits (d : Decimal) : ofDigits d.wholeDigits d.fractionDigits = d := by
  obtain ⟨units, places⟩ := d
  have hlen := length_fractionDigits ⟨units, places⟩
  simp only [ofDigits, hlen, mk.injEq, and_true]
  rw [Nat.ofDigitChars_append]
  by_cases h : places = 0
  · simp [wholeDigits, fractionDigits, h, Nat.ofDigitChars_ten_toDigits]
  · rw [Nat.ofDigitChars_eq_ofDigitChars_zero, hlen]
    have hfrac : Nat.ofDigitChars 10 (fractionDigits ⟨units, places⟩) 0 = units % 10 ^ places := by
      simp only [fractionDigits, h, ↓reduceIte, List.leftpad, Nat.ofDigitChars_append,
        Nat.ofDigitChars_replicate_zero, Nat.mul_zero, Nat.ofDigitChars_ten_toDigits]
    rw [hfrac, wholeDigits, Nat.ofDigitChars_ten_toDigits]
    exact Nat.div_add_mod units (10 ^ places)

end Decimal

/-! ### Reading a numeral -/

namespace Binary64

/-- An optional sign: whether it is a minus, and the characters after it. -/
def readSign : List Char → Bool × List Char
  | '-' :: cs => (true, cs)
  | '+' :: cs => (false, cs)
  | cs => (false, cs)

/-- An optional exponent, which takes up the whole text: a letter `e` of either case, an optional
sign and at least one digit. -/
def readExponent? : List Char → Option Int
  | [] => some 0
  | c :: cs =>
    let (negative, digits) := readSign cs
    if (c = 'e' ∨ c = 'E') ∧ digits ≠ [] ∧ digits.all Char.isDigit then
      let n : Int := Nat.ofDigitChars 10 digits 0
      some (if negative then -n else n)
    else none

/-- The number that a numeral denotes: an optional sign, digits with an optional point before,
among or after them, and an optional exponent. -/
def ofNumeral? (cs : List Char) : Option Binary64 :=
  let (negative, body) := readSign cs
  let whole := body.takeWhile Char.isDigit
  let (fraction, rest) := match body.dropWhile Char.isDigit with
    | '.' :: more => (more.takeWhile Char.isDigit, more.dropWhile Char.isDigit)
    | more => ([], more)
  if whole ++ fraction = [] then none
  else (readExponent? rest).map (Decimal.roundScaled negative (.ofDigits whole fraction))

end Binary64

end Eligibility
