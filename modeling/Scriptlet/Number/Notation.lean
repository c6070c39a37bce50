import Scriptlet.Number.Shortest

/-!
# Notation of numbers

Two notations are in use. The source notation writes a number with all its places, as a literal in
a program would. The value notation is for output: it writes very large and very small numbers with
an exponent, which always has a sign, and does not show the sign of zero.
-/
namespace Scriptlet

namespace Decimal

/-- All places of a decimal, with a point where it has a fraction. -/
def positional (d : Decimal) : List Char :=
  let digits := digitsOf d.digits
  match d.exponent with
  | .ofNat e => digits ++ List.replicate e '0'
  | .negSucc e =>
    let places := e + 1
    if places < digits.length then
      digits.take (digits.length - places) ++ '.' :: digits.drop (digits.length - places)
    else '0' :: '.' :: List.replicate (places - digits.length) '0' ++ digits

/-- One digit before the point, and the power of ten that makes up for it. -/
def scientific (d : Decimal) : List Char :=
  let digits := digitsOf d.digits
  let exponent := d.exponent + (digits.length - 1 : Nat)
  let fraction := if digits.length = 1 then [] else '.' :: digits.drop 1
  let sign := if exponent < 0 then '-' else '+'
  digits.take 1 ++ fraction ++ 'e' :: sign :: digitsOf exponent.natAbs

end Decimal

namespace Number

def withSign (n : Number) (text : List Char) : String :=
  String.ofList (if n.isNegative then '-' :: text else text)

/-- The text of a number as a literal of a program. -/
def sourceText (n : Number) : String :=
  if n.isNaN then "NaN"
  else if n.isInfinite then n.withSign "inf".toList
  else if n.isZero then n.withSign "0".toList
  else n.withSign n.shortestDecimal.positional

/-- From `10 ^ 21` on, numbers are written with an exponent. -/
def largeMagnitude : Nat := Decimal.magnitude ⟨1, 21⟩

/-- Below `10 ^ -6`, numbers are written with an exponent. -/
def smallMagnitude : Nat := Decimal.magnitude ⟨1, -6⟩

def needsExponent (n : Number) : Bool :=
  largeMagnitude ≤ n.magnitude || n.magnitude < smallMagnitude

/-- The text of a number as a value of a program. -/
def text (n : Number) : String :=
  if n.isNaN then "NaN"
  else if n.isInfinite then n.withSign "Infinity".toList
  else if n.isZero then "0"
  else if n.needsExponent then n.withSign n.shortestDecimal.scientific
  else n.withSign n.shortestDecimal.positional

end Number

end Scriptlet
