/-!
# Double-precision numbers

A number is its 64-bit pattern in the IEEE 754 format `binary64`, so that equality of patterns,
which storage must keep, and equality of values, which comparisons use, stay apart.

## Main definitions

* `Binary64` : the bit pattern.
* `Binary64.isNegative`, `Binary64.magnitude` : the sign bit and the other 63 bits.
* `Binary64.exponent`, `Binary64.fraction` : the two fields of the magnitude.
* `Binary64.isNaN`, `Binary64.isFinite` : the classes of patterns.
* `Binary64.one` : how many of the smallest units, `2 ^ (-1074)`, make the number one.
* `Binary64.scaled` : the absolute value of a finite number in that unit.
* `Binary64.key` : an integer that orders the patterns other than NaN by value.
* `Binary64.same`, `Binary64.less`, `Binary64.atMost` : comparison by value.
-/

namespace Eligibility

-- Powers of natural numbers are the core library's in every context.
attribute [local instance (100000)] instPowNat

/-- A number in the format `binary64`, as its bit pattern. -/
structure Binary64 where
  /-- The pattern: a sign bit, eleven exponent bits and fifty-two fraction bits. -/
  bits : UInt64
  deriving DecidableEq

namespace Binary64

/-- The weight of the sign bit, which lies above every magnitude. -/
abbrev signBit : Nat := 2 ^ (63 : Nat)

/-- How many fractions go with each exponent. -/
abbrev binade : Nat := 2 ^ (52 : Nat)

/-- The number one, in units of `2 ^ (-1074)`: every finite number is a multiple of this unit. -/
abbrev one : Nat := 2 ^ (1074 : Nat)

/-- The magnitude bits of an infinity; a finite magnitude is below them, a NaN above. -/
def infinityMagnitude : Nat := 2047 * binade

/-- The pattern of a sign and of the magnitude bits. -/
def ofSignMagnitude (negative : Bool) (magnitude : Nat) : Binary64 :=
  ⟨UInt64.ofNat (if negative then signBit + magnitude else magnitude)⟩

/-- Whether the sign bit is set. -/
def isNegative (x : Binary64) : Bool :=
  decide (signBit ≤ x.bits.toNat)

/-- The exponent and fraction bits. -/
def magnitude (x : Binary64) : Nat :=
  x.bits.toNat % signBit

/-- The exponent bits; `0` and `1` are for numbers on the grid of the smallest units. -/
def exponent (x : Binary64) : Nat :=
  x.magnitude / binade

/-- The fraction bits. -/
def fraction (x : Binary64) : Nat :=
  x.magnitude % binade

/-- Whether the pattern stands for no number. -/
def isNaN (x : Binary64) : Bool :=
  decide (infinityMagnitude < x.magnitude)

/-- Whether the pattern stands for a real number. -/
def isFinite (x : Binary64) : Bool :=
  decide (x.magnitude < infinityMagnitude)

/-- The absolute value of a finite number, in units of `2 ^ (-1074)`. -/
def scaled (x : Binary64) : Nat :=
  if x.exponent = 0 then x.fraction else (binade + x.fraction) * 2 ^ (x.exponent - 1)

/-- Larger for the larger of two numbers; both zeros have the key `0`. -/
def key (x : Binary64) : Int :=
  if x.isNegative then -(x.magnitude : Int) else x.magnitude

/-- Equality by value: the zeros are equal, and a NaN equals nothing. -/
def same (x y : Binary64) : Bool :=
  !x.isNaN && !y.isNaN && x.key == y.key

/-- Strict order by value, false at a NaN. -/
def less (x y : Binary64) : Bool :=
  !x.isNaN && !y.isNaN && decide (x.key < y.key)

/-- Order by value, false at a NaN. -/
def atMost (x y : Binary64) : Bool :=
  !x.isNaN && !y.isNaN && decide (x.key ≤ y.key)

theorem scaled_of_exponent_eq_zero {x : Binary64} (h : x.exponent = 0) :
    x.scaled = x.fraction :=
  if_pos h

theorem scaled_of_exponent_ne_zero {x : Binary64} (h : x.exponent ≠ 0) :
    x.scaled = (binade + x.fraction) * 2 ^ (x.exponent - 1) :=
  if_neg h

theorem fraction_lt (x : Binary64) : x.fraction < binade :=
  Nat.mod_lt _ (by decide)

/-- The magnitude bits are the exponent bits and, below them, the fraction bits. -/
theorem exponent_mul_add_fraction (x : Binary64) :
    x.exponent * binade + x.fraction = x.magnitude :=
  Nat.div_add_mod' x.magnitude binade

/-- A pattern is its sign and its magnitude bits. -/
theorem ofSignMagnitude_isNegative_magnitude (x : Binary64) :
    ofSignMagnitude x.isNegative x.magnitude = x := by
  obtain ⟨b⟩ := x
  have hb := b.toNat_lt
  simp only [ofSignMagnitude, isNegative, magnitude, signBit, mk.injEq]
  apply UInt64.toNat_inj.1
  rw [UInt64.toNat_ofNat']
  simp only [decide_eq_true_eq]
  split <;> omega

/-- Every number but a NaN equals itself. -/
@[simp] theorem same_self (x : Binary64) : x.same x = !x.isNaN := by
  simp [same]

theorem isNaN_eq_false_of_isFinite {x : Binary64} (h : x.isFinite = true) : x.isNaN = false := by
  simp only [isFinite, isNaN, decide_eq_true_eq, decide_eq_false_iff_not] at *
  omega

end Binary64

end Eligibility
