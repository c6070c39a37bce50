import Scriptlet.Text.Table

/-!
# Blank characters

The characters with the property `White_Space` of the Unicode standard, 25 in all. Lines typed at
the prompt are trimmed of them; inside a program only four of them separate tokens.
-/
namespace Scriptlet.Text

def blankRanges : Table :=
  [(0x9, 0xD), (0x20, 0x20), (0x85, 0x85), (0xA0, 0xA0), (0x1680, 0x1680), (0x2000, 0x200A),
   (0x2028, 0x2029), (0x202F, 0x202F), (0x205F, 0x205F), (0x3000, 0x3000)]

def isBlank (c : Char) : Bool := blankRanges.covers c

/-- The text without the blank characters at either end. -/
def trim (text : List Char) : List Char :=
  ((text.dropWhile isBlank).reverse.dropWhile isBlank).reverse

/-- No character that is a blank among those of ASCII is missing from the table. -/
theorem isBlank_of_isWhitespace {c : Char} (h : c.isWhitespace = true) : isBlank c = true := by
  simp only [Char.isWhitespace, Bool.or_eq_true, decide_eq_true_eq] at h
  rcases h with ((rfl | rfl) | rfl) | rfl <;> rfl

end Scriptlet.Text
