import Scriptlet.Diagnostic.Basic
import Scriptlet.Text.Line

/-!
# Reports

A report is a diagnostic as it is shown beside the text that it is about: a heading, the place of
its first character, and the help. A text without characters has no place to point at, so only the
heading is shown. Help stands beside a label on a single line and is left out when the label runs
over several lines.
-/
namespace Scriptlet

structure Report where
  header : String
  /-- File name, line and column, both counted from 1. -/
  place : Option String
  note : Option String
  deriving DecidableEq, Repr

namespace Diagnostic

/-- The name shown for a text that comes from no file. -/
def unnamed : String := "<repl>"

def header (d : Diagnostic) : String := d.stage.label ++ ": " ++ d.message

/-- The line of the last character that a range covers; an empty range has the line of its start. -/
def lastLine (text : List Char) (range : Span) : Nat :=
  (Text.placeOf text (if range.start < range.stop then range.stop - 1 else range.start)).line

def report (d : Diagnostic) (source : String) (file : Option String) : Report :=
  let text := source.toList
  if text.isEmpty then ⟨d.header, none, none⟩
  else
    let range := visible d.span text.length
    let place := Text.placeOf text range.start
    let shown := file.getD unnamed ++ ":" ++ toString (place.line + 1) ++ ":" ++
      toString (place.column + 1)
    let note := if place.line = lastLine text range then d.help.map ("help: " ++ ·) else none
    ⟨d.header, some shown, note⟩

end Diagnostic

end Scriptlet
