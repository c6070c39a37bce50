/-!
# Faults of scopes

Why a name cannot be read, assigned or declared.
-/
namespace Scriptlet

inductive ScopeFault where
  | undefined (name : String)
  | constantReassignment (name : String)
  | redeclaration (name : String)
  deriving DecidableEq, Repr

namespace ScopeFault

def message : ScopeFault → String
  | undefined name => "Undefined variable: " ++ name
  | constantReassignment name => "Cannot reassign a constant variable: " ++ name
  | redeclaration name => "Cannot redeclare block scoped variable " ++ name

def help : ScopeFault → String
  | undefined name => "Declare it first: let " ++ name ++ " = value"
  | constantReassignment name =>
    "'" ++ name ++ "' was declared with const or fn; use let for reassignable variables."
  | redeclaration name =>
    "'" ++ name ++ "' already exists in this scope; assign it with " ++ name ++ " = value instead."

end ScopeFault

end Scriptlet
