import Scriptlet.Number.Basic
import Scriptlet.Number.Power

/-!
# Rounding to the nearest number

The smallest positive double is `2 ^ -1074`, and every finite double is a whole number of these
units. A magnitude keeps the first 53 bits of that whole number: with `m` units of `2 ^ s` each it
is `s * 2 ^ 52 + m`, also where `s` is 0 and `m` has fewer bits, and also where rounding carries
`m` up to `2 ^ 53`. So one formula serves normal and subnormal numbers alike.
-/
namespace Scriptlet

namespace Number

/-- How many units make 1. -/
def unitsPerOne : Nat := twoPow 1074

/-- How many magnitudes share a binary exponent. -/
def binade : Nat := 0x10000000000000

/-- `num / den` rounded to a whole number; half a unit goes to the even neighbour. -/
def roundHalfEven (num den : Nat) : Nat :=
  let whole := num / den
  let rest := num % den
  if 2 * rest < den then whole
  else if den < 2 * rest then whole + 1
  else whole + whole % 2

/-- The magnitude nearest to `num / den`. Values beyond the largest double round to infinity. -/
def nearestMagnitude (num den : Nat) : Nat :=
  let units := num * unitsPerOne
  let scale := (units / den).log2 - 52
  min (scale * binade + roundHalfEven units (den * twoPow scale)) infiniteMagnitude

/-- The binary exponent of a magnitude, counted from the subnormal numbers, which have 0. -/
def scale (n : Number) : Nat := n.magnitude / binade - 1

/-- The whole number that is scaled: the fraction, with the implied leading bit of a normal
number. -/
def significand (n : Number) : Nat := n.magnitude - n.scale * binade

/-- The absolute value of a finite number, as a whole number of units. -/
def units (n : Number) : Nat := n.significand * twoPow n.scale

/-- The number of a sign and a whole number of units. -/
def ofUnits (negative : Bool) (units : Nat) : Number :=
  ofMagnitude negative (nearestMagnitude units unitsPerOne)

theorem roundHalfEven_scale (num den k : Nat) (hk : 0 < k) :
    roundHalfEven (num * k) (den * k) = roundHalfEven num den := by
  have lt_iff : ∀ a b : Nat, 2 * (a * k) < b * k ↔ 2 * a < b := by
    intro a b
    rw [← Nat.mul_assoc]
    exact Nat.mul_lt_mul_right hk
  have gt_iff : ∀ a b : Nat, b * k < 2 * (a * k) ↔ b < 2 * a := by
    intro a b
    rw [← Nat.mul_assoc]
    exact Nat.mul_lt_mul_right hk
  simp only [roundHalfEven, Nat.mul_div_mul_right _ _ hk, Nat.mul_mod_mul_right, lt_iff, gt_iff]

/-- Rounding depends on the quotient only, not on how it is written. -/
theorem nearestMagnitude_scale (num den k : Nat) (hk : 0 < k) :
    nearestMagnitude (num * k) (den * k) = nearestMagnitude num den := by
  have units_eq : num * k * unitsPerOne = num * unitsPerOne * k := Nat.mul_right_comm ..
  have den_eq : ∀ s, den * k * twoPow s = den * twoPow s * k := fun s => Nat.mul_right_comm ..
  simp only [nearestMagnitude, units_eq, den_eq, Nat.mul_div_mul_right _ _ hk,
    roundHalfEven_scale _ _ _ hk]

theorem roundHalfEven_exact (num den : Nat) (hd : 0 < den) :
    roundHalfEven (num * den) den = num := by
  simp [roundHalfEven, Nat.mul_div_cancel _ hd, hd]

end Number

end Scriptlet
