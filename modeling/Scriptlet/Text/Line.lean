/-!
# Lines of a text

A line ends after one of eight breaks: line feed, carriage return, the two of them in this order
(counted once), vertical tab, form feed, next line, line separator and paragraph separator. A
break belongs to the line it ends, and a break at the very end of a text starts no further line.
-/
namespace Scriptlet.Text

/-- A character that can end a line. -/
def isLineBreak (c : Char) : Bool :=
  c = '\n' || c = '\r' || c = '\x0b' || c = '\x0c' || c = '\u0085' || c = '\u2028' || c = '\u2029'

/-- Whether a line ends after `c` when `rest` follows it: a carriage return leaves that to the
line feed behind it. -/
def endsLine (c : Char) (rest : List Char) : Bool :=
  isLineBreak c && !(c = '\r' && rest.head? = some '\n')

/-- A place in a text; lines and columns are counted from 0. -/
structure Place where
  line : Nat
  column : Nat
  deriving DecidableEq, Repr

/-- The place of the character at `offset`, when counting starts at `place`. The place after the
last character is in the last line, also when that line ends with a break. -/
def placeFrom (place : Place) : List Char → Nat → Place
  | _, 0 => place
  | [], _ + 1 => place
  | c :: rest, offset + 1 =>
    if endsLine c rest && !rest.isEmpty then placeFrom ⟨place.line + 1, 0⟩ rest offset
    else placeFrom ⟨place.line, place.column + 1⟩ rest offset

def placeOf (text : List Char) (offset : Nat) : Place := placeFrom ⟨0, 0⟩ text offset

end Scriptlet.Text
