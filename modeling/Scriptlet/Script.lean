import Scriptlet.Diagnostic.Report
import Scriptlet.Interpreter

/-!
# Scripts

A script is a whole source text, which may come from a file. What goes wrong in it is reported
against that text.
-/
namespace Scriptlet

/-- What is shown to the user beside the output of programs. -/
inductive Notice where
  | report (report : Report)
  | line (text : String)
  deriving DecidableEq, Repr

namespace Script

/-- The notices about an outcome: a report if it is a failure. -/
def notices {α : Type} (source : String) (file : Option String) :
    Outcome Diagnostic α → List Notice
  | .failure diagnostic => [.report (diagnostic.report source file)]
  | _ => []

structure Result where
  outcome : Outcome Diagnostic Value
  notices : List Notice
  machine : Machine

/-- Runs a script in a scope, which keeps what the script declares. -/
def runIn (setup : Setup) (scope : ScopeId) (source : String) (file : Option String)
    (machine : Machine) : Result :=
  let (outcome, next) := setup.evalSource scope source machine
  ⟨outcome, notices source file outcome, next⟩

/-- Runs a script in a global scope of its own. -/
def run (setup : Setup) (source : String) (file : Option String) (machine : Machine) : Result :=
  let (scope, next) := machine.newGlobalScope
  runIn setup scope source file next

end Script

end Scriptlet
