import Scriptlet.Number.Decimal

/-!
# Numerals

The texts that denote a number. A numeral is an optional sign followed by one of the words `inf`,
`infinity` and `nan`, in any mixture of cases, or by digits with an optional point and an optional
exponent. At least one digit stands before or after the point. Nothing else may occur, neither
blanks nor separators between digits.
-/
namespace Scriptlet

namespace Numeral

/-- Splits off a sign; `true` is minus. -/
def splitSign : List Char → Bool × List Char
  | '-' :: rest => (true, rest)
  | '+' :: rest => (false, rest)
  | text => (false, text)

/-- Splits off the digits at the front. -/
def splitDigits (text : List Char) : List Char × List Char :=
  text.span Char.isDigit

/-- The exponent at the end of a numeral; no text is the exponent 0. -/
def exponent? : List Char → Option Int
  | [] => some 0
  | c :: rest =>
    if c = 'e' || c = 'E' then
      let (negative, text) := splitSign rest
      if text.isEmpty || !text.all Char.isDigit then none
      else
        let value : Int := Decimal.valueOf text
        some (if negative then -value else value)
    else none

/-- The digits after a point, and the text after them. -/
def splitFraction : List Char → List Char × List Char
  | '.' :: rest => splitDigits rest
  | text => ([], text)

/-- A numeral of digits, without its sign. -/
def decimal? (text : List Char) : Option Decimal :=
  let (whole, afterWhole) := splitDigits text
  let (fraction, afterFraction) := splitFraction afterWhole
  if whole.isEmpty && fraction.isEmpty then none
  else do
    let exponent ← exponent? afterFraction
    return ⟨Decimal.valueOf (whole ++ fraction), exponent - fraction.length⟩

end Numeral

/-- The number that a numeral denotes. -/
def Number.ofNumeral? (text : List Char) : Option Number :=
  let (negative, rest) := Numeral.splitSign text
  let word := String.ofList (rest.map Char.toLower)
  if word = "inf" || word = "infinity" then
    some (.ofMagnitude negative Number.infiniteMagnitude)
  else if word = "nan" then some .nan
  else (Numeral.decimal? rest).map (·.toNumber negative)

end Scriptlet
