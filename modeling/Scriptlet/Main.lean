import Scriptlet.CommandLine

/-!
# The program

Connects the command line to the files and the standard streams of the process. Everything that is
decided is decided elsewhere: here files and lines are read, and what was printed is passed on.
-/
namespace Scriptlet

namespace Console

def noticeText : Notice → String
  | .line text => text
  | .report report =>
    let place := (report.place.map ("\n  at " ++ ·)).getD ""
    let note := (report.note.map ("\n  " ++ ·)).getD ""
    "Error: " ++ report.header ++ place ++ note

/-- Passes on what was printed and what went wrong, and leaves the sink empty. -/
def deliver (notices : List Notice) (machine : Machine) : IO Machine := do
  let output ← IO.getStdout
  output.putStr machine.sink.written
  output.flush
  for notice in notices do
    IO.eprintln (noticeText notice)
  return { machine with sink := .unlimited }

def readFile (path : String) : IO (Except CommandLine.FileFault ByteArray) := do
  try
    return .ok (← IO.FS.readBinFile path)
  catch
    | .noFileOrDirectory .. => return .error .notFound
    | _ => return .error .isDirectory

/-- The bytes up to the next line feed; none at the end of the input. -/
partial def readLine (input : IO.FS.Stream) (line : List UInt8) : IO (Option (List UInt8)) := do
  let bytes ← input.read 1
  match bytes.data[0]? with
  | none => return if line.isEmpty then none else some line.reverse
  | some byte => if byte = 10 then return some line.reverse else readLine input (byte :: line)

partial def converse (scope : ScopeId) (machine : Machine) : IO Unit := do
  let machine ← deliver [] (machine.say Repl.prompt)
  match ← readLine (← IO.getStdin) [] with
  | none =>
    let _ ← deliver [] (machine.say "\n")
  | some line =>
    let turn := Repl.turn .standard scope line machine
    let next ← deliver turn.notices turn.machine
    unless turn.ended do
      converse scope next

/-- The content of the script that the arguments name. Without one the content does not matter. -/
def scriptContent (args : List String) : IO (Except CommandLine.FileFault ByteArray) := do
  match CommandLine.Options.read {} args with
  | .ok (.run options) =>
    match options.file with
    | some path => readFile path
    | none => return .error .notFound
  | _ => return .error .notFound

end Console

end Scriptlet

open Scriptlet in
def main (args : List String) : IO UInt32 := do
  let content ← Console.scriptContent args
  let (scope, progress) := CommandLine.start .standard args fun _ => content
  let machine ← Console.deliver progress.notices progress.machine
  match progress.exit with
  | some code => return code.toUInt32
  | none =>
    Console.converse scope (machine.say Repl.banner)
    return 0
