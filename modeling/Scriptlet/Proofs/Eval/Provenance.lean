import Scriptlet.Proofs.Eval.Compositional

/-!
# Who raised a fault

A fault of a native function ends the run, and nothing looks at it on the way. So if natives raised
other faults in the same places, a run would either not change at all, or end in the same state with
the other fault: then it was a native function that raised it (`evalProgram_traced`).
-/
namespace Scriptlet

namespace Eval

/-- The same native functions, with each fault replaced. -/
def Host.mapFaults (change : Fault → Fault) (host : Host) : Host := fun name =>
  (host name).map fun native args site machine =>
    ((native args site machine).1.mapError change, (native args site machine).2)

namespace Run

variable {α β : Type} {run : (Fault → Fault) → Run α}

/-- A computation that depends on the replacement of faults in one way at most: it ends with a fault
that was replaced. -/
def Traced (run : (Fault → Fault) → Run α) : Prop :=
  ∀ machine, (∀ change, run change machine = run id machine) ∨
    ∃ cause span next, ∀ change, run change machine = (.failure ⟨change cause, span⟩, next)

/-- What makes no use of native functions does not depend on them. -/
theorem traced_const (run : Run α) : Traced fun _ => run := fun _ => .inl fun _ => rfl

theorem Traced.bind {second : (Fault → Fault) → α → Run β} (h : Traced run)
    (next : ∀ a, Traced fun change => second change a) :
    Traced fun change => run change >>= second change := by
  intro machine
  rcases h machine with same | ⟨cause, span, after, raised⟩
  · cases ran : run id machine with
    | mk outcome after =>
      simp only [bind_apply, same, ran]
      cases outcome with
      | value a => exact next a after
      | failure e => exact .inl fun _ => rfl
      | unfinished => exact .inl fun _ => rfl
  · refine .inr ⟨cause, span, after, ?_⟩
    intro change
    simp only [bind_apply, raised]

end Run

open Run (Traced traced_const)

theorem traced_compositional : Compositional fun α => Traced (α := α) where
  pure _ := traced_const _
  fail _ _ := traced_const _
  unfinished := traced_const _
  newScope _ := traced_const _
  newIdentity := traced_const _
  get _ _ _ := traced_const _
  declare _ _ _ _ _ := traced_const _
  assign _ _ _ _ := traced_const _
  bind := Traced.bind

theorem callNative_traced (host : Host) (name : String) (args : List Value) (site : ScopeId)
    (span : Span) : Traced fun change => callNative (host.mapFaults change) name args site span := by
  intro machine
  simp only [callNative, Host.mapFaults]
  cases host name with
  | none => exact .inl fun _ => rfl
  | some native =>
    dsimp only [Option.map_some]
    cases native args site machine with
    | mk answer next =>
      cases answer with
      | ok value => exact .inl fun _ => rfl
      | error cause => exact .inr ⟨cause, span, next, fun _ => rfl⟩

theorem Host.mapFaults_id (host : Host) : host.mapFaults id = host := by
  funext name
  unfold mapFaults
  cases host name with
  | none => rfl
  | some native =>
    refine congrArg some ?_
    funext args site machine
    dsimp only
    cases native args site machine with
    | mk answer next => cases answer <;> rfl

/-- A run ends the same whatever native functions raise, or it ends with what one of them raised. -/
theorem evalProgram_traced (host : Host) (depth : Nat) (scope : ScopeId) (program : Program)
    (machine : Machine) :
    (∀ change, evalProgram (host.mapFaults change) depth scope program machine =
      evalProgram host depth scope program machine) ∨
    ∃ cause span next,
      evalProgram host depth scope program machine = (.failure ⟨cause, span⟩, next) ∧
      ∀ change, evalProgram (host.mapFaults change) depth scope program machine =
        (.failure ⟨change cause, span⟩, next) := by
  have plain : evalProgram (host.mapFaults id) depth scope program machine =
      evalProgram host depth scope program machine := by
    rw [Host.mapFaults_id]
  rcases traced_compositional.evalProgram (callNative_traced host) depth scope program machine with
    same | ⟨cause, span, next, raised⟩
  · exact .inl fun change => (same change).trans plain
  · exact .inr ⟨cause, span, next, plain.symm.trans (raised id), raised⟩

end Eval

end Scriptlet
