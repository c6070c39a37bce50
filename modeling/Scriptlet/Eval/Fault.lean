import Scriptlet.Diagnostic.Basic
import Scriptlet.Scope.Fault

/-!
# Faults of evaluation

Why an operation of a running program fails.
-/
namespace Scriptlet

namespace Eval

inductive Fault where
  | scope (fault : ScopeFault)
  | divisionByZero
  | memberNotFound (property : String)
  /-- A member of something that is no object: the text of the expression and the type of its
  value. -/
  | memberOfNonObject (object typeName : String)
  /-- The text of an assigned expression that is no name. -/
  | invalidTarget (target : String)
  | notCallable (typeName : String)
  | outputFailed (reason : String)
  /-- A fault of a native function, in its own words. -/
  | raised (message : String) (help : Option String)
  deriving DecidableEq, Repr

namespace Fault

def message : Fault → String
  | scope fault => fault.message
  | divisionByZero => "Cannot divide by 0"
  | memberNotFound property => "Member not found: " ++ property
  | memberOfNonObject _ typeName => "Cannot access member of non-object: " ++ typeName
  | invalidTarget target => "Invalid assignment target '" ++ target ++ "'"
  | notCallable typeName => "Cannot call a value that is not a function: " ++ typeName
  | outputFailed reason => "print failed to write output: " ++ reason
  | raised message _ => message

def help : Fault → Option String
  | scope fault => some fault.help
  | memberOfNonObject object typeName =>
    some ("'" ++ object ++ "' evaluates to a " ++ typeName ++ ", which has no members.")
  | invalidTarget _ => some "Only variables can be assigned to. Example: x = 10"
  | notCallable _ =>
    some "Only functions declared with 'fn' and builtins such as print can be called."
  | raised _ help => help
  | divisionByZero | memberNotFound _ | outputFailed _ => none

def diagnostic (fault : Located Fault) : Diagnostic :=
  ⟨.runtime, fault.span, fault.cause.message, fault.cause.help⟩

end Fault

end Eval

end Scriptlet
