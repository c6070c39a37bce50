import Scriptlet.Interpreter
import Scriptlet.Proofs.Eval.Contract
import Scriptlet.Proofs.Scope.Enclosure

/-!
# Evaluation touches only what it can reach

Names are looked up from a scope at hand, values that are read, called or passed on are at hand, and
only scopes at hand are changed. So a run is confined to the scope in which it starts
(`evaluation_confined`), also where a function that was made on the way ends up in an older scope.
-/
namespace Scriptlet

open Store

namespace Eval

/-- The native functions act only on the scope of the call and on the arguments. -/
def Host.Confined (host : Host) : Prop :=
  ∀ name native, host name = some native → ∀ args site (m : Machine),
    m.Confined (Native.Starts args site) (fun v => (native args site m).1 = .ok v)
      (native args site m).2

/-- The contract that a run keeps to what is at hand. -/
def enclosure {host : Host} (confined : host.Confined) (before : Machine)
    (roots : Referent → Prop) : Contract host where
  Holds m := before.Encloses roots m
  Future m n := m.store.scopes.size ≤ n.store.scopes.size ∧ m.nextIdentity ≤ n.nextIdentity
  Sees m id := before.AtHand roots m (.scope id)
  Owns m id := before.AtHand roots m (.scope id)
  Has m v := before.AtHand roots m (.value v)
  Knows _ := True
  Code _ := True
  Raised _ := True
  refl m := ⟨Nat.le_refl _, Nat.le_refl _⟩
  trans first second := ⟨Nat.le_trans first.1 second.1, Nat.le_trans first.2 second.2⟩
  sees_later future h := h.mono future.1 future.2
  owns_later future h := h.mono future.1 future.2
  has_later future h := h.mono future.1 future.2
  sees_of_owns h := h
  plain none := .plain none
  bound holds h found := by
    obtain ⟨owner, resolved, bound⟩ := find?_of_lookup? found
    exact holds.next (holds.atHand_of_resolve? h resolved) (.binding bound)
  member h member := h.entry member
  function h := ⟨h.closure, trivial⟩
  body _ _ _ := trivial
  part _ _ := trivial
  newScope {m parent} holds h := by
    obtain ⟨still, made⟩ := holds.newScope h
    exact ⟨still, ⟨(grows_create m.store (some parent)).size_le, Nat.le_refl _⟩, made⟩
  newObject {m entries} holds has := by
    refine ⟨holds.newIdentity, ⟨Nat.le_refl _, Nat.le_succ _⟩, ?_⟩
    refine .object ⟨holds.nextIdentity_le, Nat.lt_succ_self _⟩ ?_
    exact fun entry member => (has entry member).mono (Nat.le_refl _) (Nat.le_succ _)
  newFunction holds h _ := by
    refine ⟨holds.newIdentity, ⟨Nat.le_refl _, Nat.le_succ _⟩, ?_⟩
    exact .function ⟨holds.nextIdentity_le, Nat.lt_succ_self _⟩
      (h.mono (Nat.le_refl _) (Nat.le_succ _))
  declare {m scope name v} constant holds h has _ :=
    ⟨holds.declare h has name constant,
      (grows_bind m.store scope name v constant).size_le, Nat.le_refl _⟩
  assign {m scope name place value span v} holds h has _ allowed :=
    ⟨holds.assign h has allowed, (grows_set m.store scope name v allowed).size_le, Nat.le_refl _⟩
  native {name native args site m} known holds h has := by
    have among : ∀ o, Native.Starts args site o → before.AtHand roots m o := by
      rintro o (rfl | ⟨a, member, rfl⟩)
      · exact h
      · exact has a member
    have call := confined name native known args site m
    obtain ⟨still, given⟩ := holds.call among call
    exact ⟨still, ⟨call.size_le, call.nextIdentity_le⟩, given, fun _ _ => trivial⟩

/-- Printing changes nothing but the sink. -/
theorem encloses_print (args : List Value) (site : ScopeId) (m : Machine) :
    m.Encloses (Native.Starts args site) (Native.print args site m).2 :=
  (Machine.Encloses.refl m _).change (Nat.le_refl _) (Nat.le_refl _) (fun _ _ _ => rfl)
    fun _ _ step => .inl step

theorem confined_standard : Host.standard.Confined := by
  intro name native known args site m
  obtain rfl := Host.eq_print_of_standard known
  exact (encloses_print args site m).confined fun _ printed => .plain (Native.identity?_print printed)

end Eval

namespace Setup

open Eval

/-- A program, however it ends, changes no scope that could not be reached from its own, and what can
be reached from its scope or its value afterwards could be reached from its scope before, or was
made. -/
theorem evaluation_confined (setup : Setup) (confined : setup.host.Confined) (env : ScopeId)
    (program : Program) (machine : Machine) :
    let run := setup.evalProgram env program machine
    (∀ id < machine.store.scopes.size, ¬machine.store.Reachable (· = .scope env) (.scope id) →
      run.2.store.scope id = machine.store.scope id) ∧
    ∀ r, run.2.store.Reachable (fun o => o = .scope env ∨ ∃ v, run.1 = .value v ∧ o = .value v) r →
      machine.store.Reachable (· = .scope env) r ∨ r.Created machine run.2 := by
  let C := enclosure confined machine (· = .scope env)
  have own : C.Owns machine env := .reached (.root rfl)
  have nothing : C.Has machine .null := C.plain rfl
  have kept := evalSequence_keeps (invoke_keeps C setup.depth) env program (fun _ _ => trivial) own
    nothing (Machine.Encloses.refl _ _)
  have whole := kept.holds.confined kept.value
  refine ⟨whole.kept, ?_⟩
  intro r reached
  refine whole.reached r (reached.of_roots ?_)
  rintro o (rfl | ⟨v, value, rfl⟩)
  · exact .root (.before (.root rfl))
  · exact .root (.result (Outcome.mapError_eq_value.mp value))

/-- Two global scopes, and a program in the second that publishes a function of an inner scope and
replaces `print`: the first scope is as it was. -/
theorem evaluation_confined_globals :
    Setup.standard.host.Confined ∧
      let machine := Machine.initial.newGlobalScope.2.newGlobalScope.2
      let program : Program :=
        [.declare "g" false none ⟨0, 5⟩,
         .branch (.name "true" ⟨9, 13⟩)
           [.function "f" [] [] ⟨16, 25⟩,
            .expr (.assign (.name "g" ⟨26, 27⟩) (.name "f" ⟨30, 31⟩) ⟨26, 31⟩) ⟨26, 31⟩,
            .expr (.assign (.name "print" ⟨32, 37⟩) (.name "f" ⟨40, 41⟩) ⟨32, 41⟩) ⟨32, 41⟩]
           [] none ⟨6, 43⟩]
      let run := Setup.standard.evalProgram 1 program machine
      ((run.2.store.scope 1).find? "g").any (fun b => b.value.typeName = "function") ∧
        run.2.store.scope 0 = machine.store.scope 0 := by
  refine ⟨confined_standard, ?_⟩
  intro machine program run
  have outermost : (machine.store.scope 1).parent = none := rfl
  have bindings : (machine.store.scope 1).bindings = Machine.globalBindings 1 := rfl
  have alone : ∀ id, machine.store.Reaches 1 id → id = 1 := by
    intro id reached
    induction reached with
    | origin => rfl
    | parent _ outward ih =>
      rw [ih, outermost] at outward
      cases outward
    | binding _ bound inside ih =>
      obtain ⟨front, back, split, -⟩ := List.lookup_eq_some_iff.mp (ih ▸ bound)
      have member := bindings ▸ split ▸ List.mem_append_right front List.mem_cons_self
      simp only [Machine.globalBindings, List.mem_cons, List.not_mem_nil, or_false,
        Prod.mk.injEq] at member
      rcases member with ⟨-, rfl⟩ | ⟨-, rfl⟩ | ⟨-, rfl⟩ | ⟨-, rfl⟩ <;> cases inside
  have apart : ¬machine.store.Reachable (· = .scope 1) (.scope 0) := fun reached =>
    absurd (alone 0 (reachable_scope_iff.mp reached)) (by decide)
  have law := evaluation_confined Setup.standard confined_standard 1 program machine
  exact ⟨by decide +kernel, law.1 0 (by decide) apart⟩

end Setup

end Scriptlet
