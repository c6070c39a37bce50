import Scriptlet.Script
import Scriptlet.Text.Blank

/-!
# The prompt

The interactive loop reads one line at a time, evaluates it in one lasting scope and prints its
value. A line that fails is reported and changes nothing else about the loop. It ends with the
input, with a line that says so, or with a line that is no text.
-/
namespace Scriptlet

namespace Repl

def banner : String := "Tern Interpreter v0.1.0\nType 'exit' or press Ctrl+D to quit\n\n"

def prompt : String := "> "

def farewell : String := "Goodbye!\n"

def isExit (line : String) : Bool := line = "exit" || line = "quit"

/-- Why bytes are no text. -/
def notText : String := "stream did not contain valid UTF-8"

/-- The lines of the input, without the line feeds that end them. -/
def lines : List UInt8 → List (List UInt8)
  | [] => []
  | byte :: rest =>
    if byte = 10 then [] :: lines rest
    else
      match lines rest with
      | [] => [[byte]]
      | line :: others => (byte :: line) :: others

/-- What one line leads to. -/
structure Turn where
  notices : List Notice
  machine : Machine
  /-- Whether the loop ends here. -/
  ended : Bool

/-- Evaluates a line that is neither blank nor an exit. -/
def evaluate (setup : Setup) (scope : ScopeId) (source : String) (machine : Machine) : Turn :=
  let result := Script.runIn setup scope source none machine
  match result.outcome with
  | .value value => ⟨result.notices, result.machine.say (value.render ++ "\n"), false⟩
  | .failure _ => ⟨result.notices, result.machine, false⟩
  | .unfinished => ⟨result.notices, result.machine, true⟩

/-- The text of a line without the blanks around it, if the bytes are text. -/
def decode (line : List UInt8) : Option String :=
  (String.fromUTF8? ⟨line.toArray⟩).map fun text => String.ofList (Text.trim text.toList)

/-- Deals with a line. -/
def turn (setup : Setup) (scope : ScopeId) (line : List UInt8) (machine : Machine) : Turn :=
  match decode line with
  | none => ⟨[.line ("Error reading input: " ++ notText)], machine, true⟩
  | some source =>
    if source.isEmpty then ⟨[], machine, false⟩
    else if isExit source then ⟨[], machine.say farewell, true⟩
    else evaluate setup scope source machine

/-- Prompts before each line, and once more before the end of the input, which ends the last line
shown. -/
def loop (setup : Setup) (scope : ScopeId) :
    List (List UInt8) → Machine → List Notice × Machine
  | [], machine => ([], (machine.say prompt).say "\n")
  | line :: rest, machine =>
    let now := turn setup scope line (machine.say prompt)
    if now.ended then (now.notices, now.machine)
    else
      let (later, last) := loop setup scope rest now.machine
      (now.notices ++ later, last)

/-- Greets the user and reads lines up to the end. -/
def run (setup : Setup) (scope : ScopeId) (input : List UInt8) (machine : Machine) :
    List Notice × Machine :=
  loop setup scope (lines input) (machine.say banner)

end Repl

end Scriptlet
