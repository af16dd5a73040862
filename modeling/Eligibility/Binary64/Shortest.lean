import Eligibility.Binary64.Decimal

/-!
# The shortest decimal that reads back

A finite number is written as the decimal fraction with the fewest digits that rounds to it; of
two such fractions the nearer one is taken, and the larger one on an exact tie.  The search goes
through the grids of multiples of `10 ^ g`, coarsest first, and on each grid tries the two
neighbours of the number: if any multiple on the grid reads back, then one of these does.
Seventeen digits always suffice; should the search end without a hit, all digits are written, so
that reading back needs no bound on the number of digits.

## Main definitions

* `Binary64.exact` : the decimal fraction equal to a finite magnitude.
* `Binary64.onGrid? x g` : the multiple of `10 ^ g` next to `x` that reads back, if there is one.
* `Binary64.shortest x` : the decimal fraction to write.
* `Binary64.text x` : the text of any number, always positional.

## Main results

* `Binary64.round_shortest` : the decimal fraction written for a finite number reads back as it.
-/

namespace Eligibility

-- Powers of natural numbers are the core library's in every context.
attribute [local instance (100000)] instPowNat

namespace Binary64

/-- The decimal fraction equal to a finite magnitude. -/
def exact (x : Binary64) : Decimal :=
  ⟨x.scaled * 5 ^ (1074 : Nat), 1074⟩

/-- The decimal fraction `k * 10 ^ g`. -/
def gridPoint (g : Int) (k : Nat) : Decimal :=
  ⟨k * 10 ^ g.toNat, (-g).toNat⟩

/-- The neighbour of `x` among the multiples of `10 ^ g` that reads back as `x`, the nearer one
first and the larger one first on a tie. -/
def onGrid? (x : Binary64) (g : Int) : Option Decimal :=
  let num := x.scaled * 10 ^ (-g).toNat
  let den := one * 10 ^ g.toNat
  let below := num / den
  let neighbours := if 2 * (num % den) < den then [below, below + 1] else [below + 1, below]
  (neighbours.map (gridPoint g)).find? fun d => roundRatio d.units (10 ^ d.places) == x.magnitude

/-- An exponent of ten that is at least as large as the number needs. -/
def gridTop (x : Binary64) : Int :=
  if one ≤ x.scaled then (Nat.toDigits 10 (x.scaled / one)).length
  else 1 - ((Nat.toDigits 10 (one / x.scaled)).length : Int)

/-- The decimal fraction with the fewest digits that reads back as `x`. -/
def shortest (x : Binary64) : Decimal :=
  ((List.range 20).findSome? fun i => x.onGrid? (x.gridTop - (i : Nat))).getD x.exact

/-- The text of a number: positional at every size, without a point for a whole number. -/
def text (x : Binary64) : String :=
  if x.isNaN then "NaN"
  else
    let magnitude := if x.isFinite then String.ofList x.shortest.chars else "inf"
    if x.isNegative then "-" ++ magnitude else magnitude

theorem mul_five_pow_mul_two_pow (m k : Nat) : m * 5 ^ k * 2 ^ k = m * 10 ^ k := by
  rw [Nat.mul_assoc, ← Nat.mul_pow]

/-- The exact decimal fraction reads back. -/
theorem roundRatio_exact {x : Binary64} (hx : x.isFinite = true) :
    roundRatio x.exact.units (10 ^ x.exact.places) = x.magnitude := by
  have h := mul_five_pow_mul_two_pow x.scaled 1074
  exact roundRatio_scaled hx (Nat.pow_pos (by decide)) (by simpa only [exact] using h)

/-- A hit on a grid reads back. -/
theorem roundRatio_of_onGrid? {x : Binary64} {g : Int} {d : Decimal} (h : x.onGrid? g = some d) :
    roundRatio d.units (10 ^ d.places) = x.magnitude := by
  have := List.find?_some h
  simpa using this

/-- **What is written for a finite number reads back as that number.** -/
theorem round_shortest {x : Binary64} (hx : x.isFinite = true) :
    x.shortest.round x.isNegative = x := by
  have hmag : roundRatio x.shortest.units (10 ^ x.shortest.places) = x.magnitude := by
    unfold shortest
    cases h : (List.range 20).findSome? fun i => x.onGrid? (x.gridTop - (i : Nat)) with
    | none => exact roundRatio_exact hx
    | some d =>
      obtain ⟨i, -, hi⟩ := List.exists_of_findSome?_eq_some h
      exact roundRatio_of_onGrid? hi
  rw [Decimal.round, ofRatio, hmag, ofSignMagnitude_isNegative_magnitude]

end Binary64

end Eligibility
