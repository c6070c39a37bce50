import Scriptlet.Eval.Machine
import Scriptlet.Value.Printer

/-!
# Native functions

Functions that a program can call without having declared them. A native function is given its
arguments and the scope of the call. It knows nothing of the source, so that its faults are located
by the caller. A host says which native functions there are.
-/
namespace Scriptlet

namespace Eval

abbrev Native := List Value → ScopeId → Machine → Except Fault Value × Machine

/-- The native functions by name. -/
abbrev Host := String → Option Native

namespace Native

/-- Writes the texts of its arguments with spaces between, and ends the line. -/
def print : Native := fun args _ ⟨store, nextIdentity, sink⟩ =>
  let line := " ".intercalate (args.map Value.render)
  let (complete, sink) := sink.writeAll [line, "\n"]
  let result := if complete then .ok .null else .error (.outputFailed "sink full")
  (result, ⟨store, nextIdentity, sink⟩)

/-- The name under which `print` is known. -/
def printName : String := "print"

end Native

namespace Host

/-- The host that knows `print` alone. -/
def standard : Host := fun name => if name = Native.printName then some Native.print else none

theorem eq_print_of_standard {name : String} {native : Native}
    (known : standard name = some native) : native = Native.print := by
  unfold standard at known
  split at known <;> cases known
  rfl

end Host

end Eval

namespace Machine

/-- What a global scope binds. The words for values are constants, `print` may be replaced. -/
def globalBindings (printId : Identity) : List (String × Binding) :=
  [("true", ⟨.boolean true, true⟩), ("false", ⟨.boolean false, true⟩), ("null", ⟨.null, true⟩),
   (Eval.Native.printName, ⟨.native printId Eval.Native.printName, false⟩)]

/-- Makes a scope without parent that binds the words for values and its own `print`. -/
def newGlobalScope (machine : Machine) : ScopeId × Machine :=
  let (printId, machine) := machine.newIdentity
  let (id, machine) := machine.newScope none
  let bindings := globalBindings printId
  (id, { machine with store := machine.store.modify id fun scope => { scope with bindings } })

end Machine

end Scriptlet
