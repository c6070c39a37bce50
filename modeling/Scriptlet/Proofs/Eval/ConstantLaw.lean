import Scriptlet.Interpreter
import Scriptlet.Proofs.Eval.Steps

/-!
# Constants

A binding keeps the flag that it was declared with, and a constant its value, through every run and
every session. The flag alone therefore decides what an assignment does that finds the binding, now
or at any later time.
-/
namespace Scriptlet

namespace Setup

open Eval Store

/-- The machine after some sources were evaluated one after the other, each in a scope of its own
choice. What a source leaves behind is kept also when it fails. -/
def afterSession (setup : Setup) : List (ScopeId × String) → Machine → Machine
  | [], machine => machine
  | (scope, source) :: rest, machine =>
    setup.afterSession rest (setup.evalSource scope source machine).2

/-- In the state `later` an assignment is decided by the flag that the binding it finds had in the
state `before`. The binding is looked for when the assigned value is known. -/
def AssignsByFlag (setup : Setup) (before : Store) (later : Machine) : Prop :=
  ∀ owner name binding, (before.scope owner).find? name = some binding →
    ∀ scope target value span a next,
      evalExpr (invoke setup.host setup.depth) scope value later = (.value a, next) →
      next.store.resolve? scope name = some owner →
      evalExpr (invoke setup.host setup.depth) scope (.assign (.name name target) value span) later =
        if binding.constant then (.failure ⟨.scope (.constantReassignment name), span⟩, next)
        else (.value a, { next with store := next.store.set scope name a })

variable {setup : Setup}

theorem evalProgram_steps (disciplined : setup.host.Disciplined) (scope : ScopeId)
    (program : Program) (machine : Machine) :
    Steps machine.store (setup.evalProgram scope program machine).2.store :=
  Eval.evalProgram_steps disciplined setup.depth scope program machine

theorem evalSource_steps (disciplined : setup.host.Disciplined) (scope : ScopeId)
    (source : String) (machine : Machine) :
    Steps machine.store (setup.evalSource scope source machine).2.store := by
  unfold evalSource
  split
  · exact .refl
  · exact evalProgram_steps disciplined scope _ machine

theorem afterSession_steps (disciplined : setup.host.Disciplined)
    (session : List (ScopeId × String)) (machine : Machine) :
    Steps machine.store (setup.afterSession session machine).store := by
  induction session generalizing machine with
  | nil => exact .refl
  | cons entry rest ih =>
    obtain ⟨scope, source⟩ := entry
    exact (evalSource_steps disciplined scope source machine).trans (ih _)

/-- Once the value of an assignment is known, only the fault of the store can stop it. -/
theorem evalExpr_assign_of_value {caller : Caller} {scope : ScopeId} {value : Expr} {a : Value}
    {later next : Machine} (evaluated : evalExpr caller scope value later = (.value a, next))
    (name : String) (target span : Span) :
    evalExpr caller scope (.assign (.name name target) value span) later =
      match next.store.assignFault? scope name with
      | some fault => (.failure ⟨.scope fault, span⟩, next)
      | none => (.value a, { next with store := next.store.set scope name a }) := by
  rw [evalExpr, Run.bind_apply, evaluated]
  simp only [Run.bind_apply, Run.assign, Run.updateStore]
  cases next.store.assignFault? scope name <;> rfl

theorem assignsByFlag_of_steps (disciplined : setup.host.Disciplined) {before : Store}
    {later : Machine} (steps : Steps before later.store) : setup.AssignsByFlag before later := by
  intro owner name binding declared scope target value span a next evaluated resolved
  have run : Steps later.store next.store := by
    have steps := evalExpr_steps disciplined setup.depth scope value later
    rwa [evaluated] at steps
  obtain ⟨found, found_eq, flag, _⟩ :=
    (grows_of_steps (steps.trans run)).binding_kept owner name binding declared
  rw [evalExpr_assign_of_value evaluated, assignFault?_owner resolved found_eq, flag]
  cases binding.constant <;> rfl

/-- Scopes keep their parents and names, bindings their flags and constants their values, whatever
is evaluated and however it ends. So in every state that a session leads to, and in every state that
is reached from there, an assignment to a constant fails, and no other assignment fails for that
reason. -/
theorem constants_stay (setup : Setup) (disciplined : setup.host.Disciplined) (machine : Machine) :
    (∀ scope program, machine.store.Grows (setup.evalProgram scope program machine).2.store) ∧
    ∀ session : List (ScopeId × String),
      machine.store.Grows (setup.afterSession session machine).store ∧
      ∀ later : Machine, Steps (setup.afterSession session machine).store later.store →
        setup.AssignsByFlag machine.store later := by
  refine ⟨?_, ?_⟩
  · intro scope program
    exact grows_of_steps (evalProgram_steps disciplined scope program machine)
  · intro session
    have steps := afterSession_steps disciplined session machine
    refine ⟨grows_of_steps steps, ?_⟩
    intro later further
    exact assignsByFlag_of_steps disciplined (steps.trans further)

/-- In a global scope, after a source that declares and assigns a name of its own, the constant
`true` cannot be assigned. -/
theorem constants_stay_true :
    Setup.standard.host.Disciplined ∧
      let machine := Machine.initial.newGlobalScope.2
      let later := Setup.standard.afterSession [(0, "let x = 1 x = 2")] machine
      later.store.scopes.size = 1 ∧
        evalExpr (invoke Setup.standard.host Setup.standard.depth) 0
          (.assign (.name "true" ⟨0, 4⟩) (.text "no" ⟨7, 11⟩) ⟨0, 11⟩) later =
            (.failure ⟨.scope (.constantReassignment "true"), ⟨0, 11⟩⟩, later) := by
  refine ⟨disciplined_standard, by decide +kernel, ?_⟩
  have law := ((constants_stay Setup.standard disciplined_standard
    Machine.initial.newGlobalScope.2).2 [(0, "let x = 1 x = 2")]).2 _ .refl
  exact law 0 "true" ⟨.boolean true, true⟩ rfl 0 _ _ _ _ _ rfl (by decide +kernel)

end Setup

end Scriptlet
