import Scriptlet.Proofs.Eval.Compositional
import Scriptlet.Proofs.Scope.Growth

/-!
# Every run is a sequence of steps

Whatever a program does and however it ends, the scopes change by steps of `Store.Step` alone. The
evaluator touches the store in three places, so that an invariant of scopes has to be shown for the
three steps only (`evalProgram_steps`). Native functions come from outside: what they do to scopes is
a premise on the host.
-/
namespace Scriptlet

namespace Eval

open Store (Steps)

/-- The native functions change scopes by steps only: they make scopes, declare and assign. -/
def Host.Disciplined (host : Host) : Prop :=
  ∀ name native, host name = some native → ∀ args scope machine,
    Steps machine.store (native args scope machine).2.store

/-- A computation that changes scopes by steps only, also when it fails or is cut short. -/
def Run.Stepwise {α : Type} (run : Run α) : Prop :=
  ∀ machine, Steps machine.store (run machine).2.store

namespace Run

variable {α β : Type}

theorem stepwise_pure (a : α) : (pure a : Run α).Stepwise := fun _ => .refl

theorem stepwise_fail (cause : Fault) (span : Span) : (fail cause span : Run α).Stepwise :=
  fun _ => .refl

theorem Stepwise.bind {first : Run α} {second : α → Run β} (h : first.Stepwise)
    (k : ∀ a, (second a).Stepwise) : (first >>= second).Stepwise := by
  intro machine
  have before := h machine
  rw [bind_apply]
  cases run : first machine with
  | mk outcome next =>
    rw [run] at before
    cases outcome with
    | value a => exact before.trans (k a next)
    | failure e => exact before
    | unfinished => exact before

theorem stepwise_get (scope : ScopeId) (name : String) (span : Span) :
    (get scope name span).Stepwise := by
  intro machine
  unfold get
  split <;> exact .refl

theorem stepwise_newScope (parent : ScopeId) : (newScope parent).Stepwise := fun machine =>
  .single (.create machine.store (some parent))

theorem stepwise_newIdentity : newIdentity.Stepwise := fun _ => .refl

theorem stepwise_updateStore (span : Span) (fault? : Store → Option ScopeFault)
    (change : Store → Store) (step : ∀ store, fault? store = none → Steps store (change store)) :
    (updateStore span fault? change).Stepwise := by
  intro ⟨store, nextIdentity, sink⟩
  simp only [updateStore]
  cases fault : fault? store with
  | some _ => exact .refl
  | none => exact step store fault

theorem stepwise_declare (scope : ScopeId) (name : String) (value : Value) (constant : Bool)
    (span : Span) : (declare scope name value constant span).Stepwise :=
  stepwise_updateStore span _ _ fun store free =>
    .single (.declare store scope name value constant free)

theorem stepwise_assign (scope : ScopeId) (name : String) (value : Value) (span : Span) :
    (assign scope name value span).Stepwise :=
  stepwise_updateStore span _ _ fun store allowed => .single (.assign store scope name value allowed)

end Run

theorem stepwise_compositional {ι : Type} :
    Compositional fun α (run : ι → Run α) => ∀ i, (run i).Stepwise where
  pure a _ := Run.stepwise_pure a
  fail span _ _ := Run.stepwise_fail _ span
  unfinished _ _ := .refl
  newScope parent _ := Run.stepwise_newScope parent
  newIdentity _ := Run.stepwise_newIdentity
  get scope name span _ := Run.stepwise_get scope name span
  declare scope name value constant span _ := Run.stepwise_declare scope name value constant span
  assign scope name value span _ := Run.stepwise_assign scope name value span
  bind first second i := (first i).bind fun a => second a i

theorem callNative_stepwise {host : Host} (disciplined : host.Disciplined) (name : String)
    (args : List Value) (scope : ScopeId) (span : Span) :
    (callNative host name args scope span).Stepwise := by
  intro machine
  unfold callNative
  cases known : host name with
  | none => exact .refl
  | some native =>
    have steps := disciplined name native known args scope machine
    cases called : native args scope machine with
    | mk result next =>
      rw [called] at steps
      cases result <;> simpa only [called] using steps

/-- Calls change scopes by steps only, however deep they are nested. -/
theorem invoke_stepwise {host : Host} (disciplined : host.Disciplined) (depth : Nat) :
    Caller.All (fun _ : Unit => invoke host depth) fun _ run => ∀ i, (run i).Stepwise :=
  stepwise_compositional.invoke
    (fun name args site span _ => callNative_stepwise disciplined name args site span) depth

theorem evalExpr_steps {host : Host} (disciplined : host.Disciplined) (depth : Nat)
    (scope : ScopeId) (e : Expr) (machine : Machine) :
    Steps machine.store (evalExpr (invoke host depth) scope e machine).2.store :=
  stepwise_compositional.evalExpr (invoke_stepwise disciplined depth) scope e () machine

theorem evalProgram_steps {host : Host} (disciplined : host.Disciplined) (depth : Nat)
    (scope : ScopeId) (program : Program) (machine : Machine) :
    Steps machine.store (evalProgram host depth scope program machine).2.store :=
  stepwise_compositional.evalSequence (invoke_stepwise disciplined depth) scope .null program ()
    machine

theorem disciplined_standard : Host.standard.Disciplined := by
  intro name native known args scope machine
  unfold Host.standard at known
  split at known
  · cases known
    exact .refl
  · cases known

end Eval

end Scriptlet
