import Scriptlet.Token.Basic
import Scriptlet.Text.Alphabetic

/-!
# From characters to tokens

A text is read from left to right, and each lexeme is as long as it can be. What stands at a
character is decided from that character and the ones behind it (`step`), never from the tokens
before. Spaces, tabs, line feeds and carriage returns separate tokens and are dropped.
-/
namespace Scriptlet

namespace Token

/-- What stands at a character. -/
inductive Step where
  /-- A blank between tokens. -/
  | blank
  /-- A lexeme: the character and `more` characters behind it. -/
  | lexeme (kind : Kind) (more : Nat)
  /-- No token; the fault is about `size` characters. -/
  | fault (cause : Fault) (size : Nat)
  deriving DecidableEq, Repr

/-- The four characters that separate tokens. -/
def isSeparator (c : Char) : Bool := c = ' ' || c = '\t' || c = '\n' || c = '\r'

def isQuote (c : Char) : Bool := c = '"' || c = '\''

/-- Lexemes of one character that never begin a longer one. -/
def single? : Char → Option Kind
  | '(' => some .openParen
  | ')' => some .closeParen
  | '\x7b' => some .openBrace
  | '\x7d' => some .closeBrace
  | ';' => some .semicolon
  | ':' => some .colon
  | ',' => some .comma
  | '.' => some .period
  | '+' | '-' | '*' | '/' | '%' => some .arithmetic
  | _ => none

/-- Operators that a following `=` turns into a comparison, with their class when it is missing. -/
def beforeEquals? : Char → Option Kind
  | '=' => some .assign
  | '!' => some .negation
  | '<' | '>' => some .comparison
  | _ => none

namespace Step

/-- A text literal ends at the next quote of its own kind; nothing inside has a special meaning. -/
def quoted (quote : Char) (rest : List Char) : Step :=
  let inside := (rest.takeWhile (· ≠ quote)).length
  if inside < rest.length then lexeme .text (inside + 1)
  else fault (.unterminated quote) (rest.length + 1)

def word (c : Char) (rest : List Char) : Step :=
  let letters := rest.takeWhile Text.isAlphabetic
  lexeme (.ofWord (String.ofList (c :: letters))) letters.length

end Step

/-- What stands at `c` when `rest` follows. -/
def step (c : Char) (rest : List Char) : Step :=
  match single? c, beforeEquals? c with
  | some kind, _ => .lexeme kind 0
  | none, some kind => if rest.head? = some '=' then .lexeme .comparison 1 else .lexeme kind 0
  | none, none =>
    if c = '&' || c = '|' then
      if rest.head? = some c then .lexeme .logical 1 else .fault (.halfOperator c) 1
    else if isSeparator c then .blank
    else if isQuote c then .quoted c rest
    else if c.isDigit then .lexeme .number (rest.takeWhile Char.isDigit).length
    else if Text.isAlphabetic c then .word c rest
    else .fault (.unrecognized c) 1

/-- The tokens of a text whose first character has the given offset. The first `pending` characters
belong to a token that was already read. -/
def scanFrom : (offset pending : Nat) → List Char → Except (Located Fault) (List Token)
  | offset, _, [] => .ok [endMarker offset]
  | offset, pending + 1, _ :: rest => scanFrom (offset + 1) pending rest
  | offset, 0, c :: rest =>
    match step c rest with
    | .blank => scanFrom (offset + 1) 0 rest
    | .fault cause size => .error ⟨cause, ⟨offset, offset + size⟩⟩
    | .lexeme kind more => do
      let tokens ← scanFrom (offset + 1) more rest
      let text := String.ofList (c :: rest.take more)
      return ⟨kind, text, ⟨offset, offset + more + 1⟩⟩ :: tokens

/-- The characters of a token that was read are passed over. -/
theorem scanFrom_eq_drop (text : List Char) (offset pending : Nat) (h : pending ≤ text.length) :
    scanFrom offset pending text = scanFrom (offset + pending) 0 (text.drop pending) := by
  induction text generalizing offset pending with
  | nil =>
    obtain rfl : pending = 0 := by simpa using h
    rfl
  | cons c rest ih =>
    cases pending with
    | zero => rfl
    | succ pending =>
      simp only [List.length_cons] at h
      rw [scanFrom, ih _ _ (by omega), List.drop_succ_cons]
      congr 1
      omega

/-- The tokens of a text, with the end of the input as the last one. -/
def scan (source : String) : Except (Located Fault) (List Token) := scanFrom 0 0 source.toList

end Token

end Scriptlet
