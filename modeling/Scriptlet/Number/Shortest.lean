import Scriptlet.Number.Decimal

/-!
# Shortest decimals

The shortest decimal of a number is one with the fewest digits that reads back as that number, and
among those the one nearest to it; of two that are equally near it is the larger one. On the grid of
decimals with a given count of digits only the two neighbours of the number can be that decimal, so
the grids of 1 to 17 digits are tried in turn. Should none of them have a hit, all digits of the
number are written, so that what comes out always reads back.
-/
namespace Scriptlet

namespace Number

/-- An estimate of the power of ten of the first digit, from that of two: `1233 / 4096` is close to
the logarithm of 2. It may be off by one. -/
def firstPlace (n : Number) : Int := ((n.units.log2 : Int) - 1074) * 1233 / 4096

/-- The digits of a number up to a place; the rest is cut off. -/
def digitsUpTo (n : Number) (place : Int) : Decimal :=
  match place with
  | .ofNat e => ⟨n.units / (unitsPerOne * tenPow e), place⟩
  | .negSucc e => ⟨n.units * tenPow (e + 1) / unitsPerOne, place⟩

/-- The first digits of a number, one or two more than can be needed. -/
def leading (n : Number) : Decimal := n.digitsUpTo (n.firstPlace - 17)

/-- Whether a number is nearer to a decimal below it than to the next one on the same grid. In the
middle it is not. -/
def isNearerBelow (n : Number) (low : Decimal) : Bool :=
  match low.exponent with
  | .ofNat e => 2 * n.units < (2 * low.digits + 1) * tenPow e * unitsPerOne
  | .negSucc e => 2 * n.units * tenPow (e + 1) < (2 * low.digits + 1) * unitsPerOne

/-- The better of the two neighbours of `n` on a grid, `low` being the lower one, if one of them
reads back as `n`. -/
def neighbour? (n : Number) (low : Decimal) : Option Decimal :=
  let high : Decimal := ⟨low.digits + 1, low.exponent⟩
  if low.magnitude = n.magnitude then
    if high.magnitude = n.magnitude && !n.isNearerBelow low then some high else some low
  else if high.magnitude = n.magnitude then some high
  else none

/-- `neighbour?` on the grid without the last `dropped` digits of `leading`. -/
def hit? (n : Number) (leading : Decimal) (dropped : Nat) : Option Decimal :=
  n.neighbour? ⟨leading.digits / tenPow dropped, leading.exponent + dropped⟩

/-- All digits of `n`: a unit is `5 ^ 1074 * 10 ^ -1074`. -/
def exactDecimal (n : Number) : Decimal := ⟨n.units * fivePow 1074, -1074⟩

/-- The shortest decimal of the absolute value of a finite number other than zero. -/
def shortestDecimal (n : Number) : Decimal :=
  let leading := n.leading
  let count := (Decimal.digitsOf leading.digits).length
  let found := (List.range' 1 17).findSome? fun kept => n.hit? leading (count - kept)
  (found.getD n.exactDecimal).trimmed

theorem magnitude_of_neighbour? {n : Number} {low d : Decimal} (h : n.neighbour? low = some d) :
    d.magnitude = n.magnitude := by
  simp only [neighbour?] at h
  split at h
  · split at h
    · next both =>
      cases h
      simp only [Bool.and_eq_true, decide_eq_true_eq] at both
      exact both.1
    · next low _ => cases h; exact low
  · split at h
    · next high => cases h; exact high
    · cases h

end Number

end Scriptlet
