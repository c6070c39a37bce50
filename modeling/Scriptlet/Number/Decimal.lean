import Scriptlet.Number.Rounding

/-!
# Decimals

A decimal is `digits * 10 ^ exponent`. Reading one gives the nearest number. Exponents that are far
out of the range of numbers are settled before any power is computed.
-/
namespace Scriptlet

structure Decimal where
  digits : Nat
  exponent : Int
  deriving DecidableEq, Repr

namespace Decimal

/-- The magnitude nearest to a decimal. Past `10 ^ 400` lies only infinity, and below `10 ^ -400`
only zero; a value of `digits` has fewer than `digits.log2 + 2` digits. -/
def magnitude (d : Decimal) : Nat :=
  match d.exponent with
  | .ofNat e =>
    if d.digits = 0 then 0
    else if 400 < e then Number.infiniteMagnitude
    else Number.nearestMagnitude (d.digits * tenPow e) 1
  | .negSucc e =>
    if d.digits.log2 + 400 < e then 0
    else Number.nearestMagnitude d.digits (tenPow (e + 1))

def toNumber (negative : Bool) (d : Decimal) : Number :=
  Number.ofMagnitude negative d.magnitude

/-- The digits of a natural number, without leading zeros. -/
def digitsOf (n : Nat) : List Char := Nat.toDigits 10 n

/-- The value of a text of digits. -/
def valueOf (digits : List Char) : Nat :=
  digits.foldl (fun value c => 10 * value + (c.toNat - '0'.toNat)) 0

/-- The same value without zeros at the end of its digits. -/
def trimmed (d : Decimal) : Decimal :=
  let zeros := ((digitsOf d.digits).reverse.takeWhile (· = '0')).length
  ⟨d.digits / tenPow zeros, d.exponent + zeros⟩

end Decimal

end Scriptlet
