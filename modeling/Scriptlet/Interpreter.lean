import Scriptlet.Eval.Basic
import Scriptlet.Syntax.Parser
import Scriptlet.Token.Scan

/-!
# The interpreter

From a source text to the value of its last statement: scan, parse, evaluate. The first stage that
fails ends the work, and its fault is what the user is told. Scanning and parsing change nothing, so
that a text that is no program leaves the machine as it was.
-/
namespace Scriptlet

/-- The program that a text spells out. -/
def parseSource (source : String) : Except Diagnostic Program := do
  let tokens ← (Token.scan source).mapError Token.Fault.diagnostic
  (Syntax.parse tokens).mapError Syntax.Fault.diagnostic

/-- What evaluation takes for granted: the native functions, and how deep calls may be nested. -/
structure Setup where
  host : Eval.Host
  depth : Nat

namespace Setup

/-- `print` alone, and calls nested as deep as anything can count. -/
def standard : Setup := ⟨.standard, twoPow 62⟩

/-- The result of a computation on the machine, with faults worded for the user. -/
def conclude {α : Type} (run : Eval.Run α) (machine : Machine) : Outcome Diagnostic α × Machine :=
  let (outcome, next) := run machine
  (outcome.mapError Eval.Fault.diagnostic, next)

def evalStmt (setup : Setup) (scope : ScopeId) (statement : Stmt) (machine : Machine) :
    Outcome Diagnostic Value × Machine :=
  conclude (Eval.evalStmt (Eval.invoke setup.host setup.depth) scope statement) machine

def evalProgram (setup : Setup) (scope : ScopeId) (program : Program) (machine : Machine) :
    Outcome Diagnostic Value × Machine :=
  conclude (Eval.evalProgram setup.host setup.depth scope program) machine

/-- The value of a source text in a scope, which keeps what the text declares. -/
def evalSource (setup : Setup) (scope : ScopeId) (source : String) (machine : Machine) :
    Outcome Diagnostic Value × Machine :=
  match parseSource source with
  | .error diagnostic => (.failure diagnostic, machine)
  | .ok program => setup.evalProgram scope program machine

end Setup

end Scriptlet
