import Scriptlet.Interpreter
import Scriptlet.Proofs.Eval.Contract
import Scriptlet.Proofs.Eval.Provenance

/-!
# Diagnostics name the operation that failed

All code that a run may come upon is in its program, or in the body of a function that could be
reached from the start: a function that is declared on the way has its body from there. So a fault
that no native function raised is explained by a node in one of these places
(`failure_explained`), provided that native functions bring no code.
-/
namespace Scriptlet

open Store

namespace Program

/-- A node of a program, or of the body of a function that can be reached from a scope. -/
def Offers (program : Program) (machine : Machine) (env : ScopeId) (node : Node) : Prop :=
  program.HasNode node ∨ ∃ id closure,
    machine.store.Reachable (· = .scope env) (.value (.function id closure)) ∧
      Program.HasNode closure.body node

/-- A function that a run of the program may call: one that can be reached, or one that a statement
declares that the run may come upon. -/
def Meets (program : Program) (machine : Machine) (env : ScopeId) (closure : Closure) : Prop :=
  (∃ id reached, machine.store.Reachable (· = .scope env) (.value (.function id reached)) ∧
    reached.params = closure.params ∧ reached.body = closure.body) ∨
  ∃ name span, program.Offers machine env (.stmt (.function name closure.params closure.body span))

variable {program : Program} {machine : Machine} {env : ScopeId} {whole inner : Node}

theorem HasNode.of_mem {s : Stmt} (member : s ∈ program) : program.HasNode (.stmt s) :=
  ⟨s, member, .refl⟩

theorem HasNode.part (h : program.HasNode whole) (child : whole.Child inner) :
    program.HasNode inner := by
  obtain ⟨s, member, holds⟩ := h
  exact ⟨s, member, holds.tail child⟩

theorem Offers.part (h : program.Offers machine env whole) (child : whole.Child inner) :
    program.Offers machine env inner := by
  rcases h with own | ⟨id, closure, reached, inside⟩
  · exact .inl (own.part child)
  · exact .inr ⟨id, closure, reached, inside.part child⟩

theorem Meets.offers {closure : Closure} (h : program.Meets machine env closure) {s : Stmt}
    (member : s ∈ closure.body) : program.Offers machine env (.stmt s) := by
  rcases h with ⟨id, reached, found, -, same⟩ | ⟨name, span, declared⟩
  · exact .inr ⟨id, reached, found, .of_mem (same ▸ member)⟩
  · exact declared.part (.body member)

/-- Only parameters and body matter. -/
theorem Meets.of_eq {old closure : Closure} (h : program.Meets machine env old)
    (params_eq : old.params = closure.params) (body_eq : old.body = closure.body) :
    program.Meets machine env closure := by
  unfold Meets at h ⊢
  rwa [params_eq, body_eq] at h

end Program

namespace Store

/-- All functions that can be reached from a scope or a value satisfy `Knows`. -/
def Familiar (store : Store) (Knows : Closure → Prop) (r : Referent) : Prop :=
  ∀ id closure, store.Reachable (· = r) (.value (.function id closure)) → Knows closure

variable {store later : Store} {Knows : Closure → Prop} {o r : Referent}

theorem Familiar.of_reachable (h : store.Familiar Knows o) (reached : store.Reachable (· = o) r) :
    store.Familiar Knows r := by
  intro id closure further
  refine h id closure (further.of_roots ?_)
  rintro _ rfl
  exact reached

theorem Familiar.next (h : store.Familiar Knows o) (step : store.Next o r) :
    store.Familiar Knows r :=
  h.of_reachable (.next (.root rfl) step)

theorem familiar_of_next (own : ∀ id closure, r = .value (.function id closure) → Knows closure)
    (next : ∀ o, store.Next r o → store.Familiar Knows o) : store.Familiar Knows r := by
  intro id closure reached
  rcases reached.first with same | ⟨between, step, further⟩
  · exact own id closure same.symm
  · exact next between step id closure further

theorem familiar_plain {v : Value} (none : v.identity? = none) :
    store.Familiar Knows (.value v) := by
  refine familiar_of_next ?_ ?_
  · rintro id closure ⟨⟩
    cases none
  · intro o step
    cases step <;> cases none

/-- Scopes may change that still lead only to familiar scopes and values. -/
theorem Familiar.change (h : store.Familiar Knows r) {starts : Referent → Prop}
    (given : ∀ o, starts o → store.Familiar Knows o)
    (changed : ∀ id o, later.Next (.scope id) o → store.Next (.scope id) o ∨ starts o) :
    later.Familiar Knows r := by
  intro id closure reached
  have earlier : ∀ o, later.Reachable (· = r) o →
      store.Reachable (fun o => o = r ∨ starts o) o := by
    intro o reached
    induction reached with
    | root is_root => exact .root (.inl is_root)
    | @next o _ _ step ih =>
      cases o with
      | value v => exact ih.next step.of_value
      | scope id =>
        rcases changed id _ step with old | new
        · exact ih.next old
        · exact .root (.inr new)
  obtain ⟨o, is_root, further⟩ := (earlier _ reached).exists_root
  rcases is_root with rfl | start
  · exact h id closure further
  · exact given o start id closure further

theorem Familiar.bind {v : Value} (h : store.Familiar Knows r)
    (value : store.Familiar Knows (.value v)) (id : ScopeId) (name : String) (constant : Bool) :
    (store.bind id name v constant).Familiar Knows r :=
  h.change (by rintro _ rfl; exact value) fun _ _ => next_bind

theorem Familiar.set {v : Value} (h : store.Familiar Knows r)
    (value : store.Familiar Knows (.value v)) (id : ScopeId) (name : String) :
    (store.set id name v).Familiar Knows r :=
  h.change (by rintro _ rfl; exact value) fun _ _ => next_set

end Store

namespace Eval

/-- The native functions make no code: whatever roots are added to the scope of the call and the
arguments, a function that can be reached from there or from the result is, but for its scope, one
that could be reached before. -/
def Host.BringsNoCode (host : Host) : Prop :=
  ∀ name native, host name = some native → ∀ args site m (roots : Referent → Prop),
    let starts o := roots o ∨ Native.Starts args site o
    let answer := native args site m
    ∀ id closure,
      answer.2.store.Reachable (fun o => starts o ∨ ∃ v, answer.1 = .ok v ∧ o = .value v)
        (.value (.function id closure)) →
      ∃ id' old, m.store.Reachable starts (.value (.function id' old)) ∧
        old.params = closure.params ∧ old.body = closure.body

/-- The contract that a run from a scope comes upon no code but what its program offers. -/
def familiarity {host : Host} (codeless : host.BringsNoCode) (Raised : Fault → Prop)
    (raises : ∀ {name native args site m cause}, host name = some native →
      (native args site m).1 = .error cause → Raised cause)
    (program : Program) (machine : Machine) (env : ScopeId) : Contract host where
  Holds _ := True
  Future m n := ∀ r, m.store.Familiar (program.Meets machine env) r →
    n.store.Familiar (program.Meets machine env) r
  Sees m id := m.store.Familiar (program.Meets machine env) (.scope id)
  Owns m id := m.store.Familiar (program.Meets machine env) (.scope id)
  Has m v := m.store.Familiar (program.Meets machine env) (.value v)
  Knows := program.Meets machine env
  Code := program.Offers machine env
  Raised := Raised
  refl _ _ h := h
  trans first second r h := second r (first r h)
  sees_later future h := future _ h
  owns_later future h := future _ h
  has_later future h := future _ h
  sees_of_owns h := h
  plain none := familiar_plain none
  bound _ h found := by
    obtain ⟨owner, resolved, bound⟩ := find?_of_lookup? found
    exact (h.of_reachable (reachable_of_resolveWithin (.root rfl) resolved)).next (.binding bound)
  member h member := h.next (.entry member)
  function h := ⟨h.next .closure, h _ _ (.root rfl)⟩
  body meets _ member := meets.offers member
  part offers child := offers.part child
  newScope {m parent} _ h := by
    have future : ∀ r, m.store.Familiar (program.Meets machine env) r →
        (m.newScope (some parent)).2.store.Familiar (program.Meets machine env) r :=
      fun r familiar => familiar.change (by rintro _ rfl; exact h) fun _ _ => next_create
    refine ⟨trivial, future, future _ ?_⟩
    exact familiar_of_next nofun fun _ step => absurd (lt_size_of_next step) (Nat.lt_irrefl _)
  newObject {m entries} _ has := by
    refine ⟨trivial, fun _ h => h, familiar_of_next nofun ?_⟩
    intro o step
    cases step with
    | entry member => exact has _ member
  newFunction _ h offers := by
    refine ⟨trivial, fun _ h => h, familiar_of_next ?_ ?_⟩
    · rintro id closure ⟨⟩
      exact .inr ⟨_, _, offers⟩
    · intro o step
      cases step
      exact h
  declare constant _ _ has _ := ⟨trivial, fun _ h => h.bind has _ _ constant⟩
  assign _ _ has _ _ := ⟨trivial, fun _ h => h.set has _ _⟩
  native {name native args site m} known _ h has := by
    have starts : ∀ o, Native.Starts args site o →
        m.store.Familiar (program.Meets machine env) o := by
      rintro o (rfl | ⟨a, member, rfl⟩)
      · exact h
      · exact has a member
    -- A function that is reached afterwards has the code of one that was reached before.
    have reached_meets : ∀ roots : Referent → Prop,
        (∀ o, roots o → m.store.Familiar (program.Meets machine env) o) → ∀ id closure,
        (native args site m).2.store.Reachable (fun o => (roots o ∨ Native.Starts args site o) ∨
          ∃ v, (native args site m).1 = .ok v ∧ o = .value v) (.value (.function id closure)) →
        program.Meets machine env closure := by
      intro roots familiar id closure reached
      obtain ⟨id', old, before, params_eq, body_eq⟩ :=
        codeless name native known args site m roots id closure reached
      obtain ⟨o, root | start, from_root⟩ := before.exists_root
      · exact (familiar o root id' old from_root).of_eq params_eq body_eq
      · exact (starts o start id' old from_root).of_eq params_eq body_eq
    refine ⟨trivial, ?_, ?_, fun cause => raises known⟩
    · intro r familiar id closure reached
      refine reached_meets (· = r) (fun _ is_root => is_root ▸ familiar) id closure ?_
      exact reached.of_roots fun _ is_root => .root (.inl (.inl is_root))
    · intro v given id closure reached
      refine reached_meets (fun _ => False) nofun id closure ?_
      exact reached.of_roots fun _ is_value => .root (.inr ⟨v, given, is_value⟩)

/-- From the start, the program and its scope offer all code that a run comes upon. -/
theorem failure_allowed {host : Host} (codeless : host.BringsNoCode) (Raised : Fault → Prop)
    (raises : ∀ {name native args site m cause}, host name = some native →
      (native args site m).1 = .error cause → Raised cause)
    {depth : Nat} {env : ScopeId} {program : Program} {machine : Machine} {e : Located Fault}
    (failed : (evalProgram host depth env program machine).1 = .failure e) :
    (familiarity codeless Raised raises program machine env).Allows e := by
  let C := familiarity codeless Raised raises program machine env
  have own : C.Owns machine env := fun id closure reached => .inl ⟨id, closure, reached, rfl, rfl⟩
  have nothing : C.Has machine .null := C.plain rfl
  have code : ∀ s ∈ program, C.Code (.stmt s) := fun s member => .inl (.of_mem member)
  have kept := evalSequence_keeps (invoke_keeps C depth) env program code own nothing trivial
  exact kept.failure e failed

section

variable {host : Host} {change : Fault → Fault}

theorem Host.exists_of_mapFaults {name : String} {native : Native}
    (known : host.mapFaults change name = some native) :
    ∃ original, host name = some original ∧ native = fun args site m =>
      ((original args site m).1.mapError change, (original args site m).2) := by
  obtain ⟨original, found, rfl⟩ := Option.map_eq_some_iff.mp known
  exact ⟨original, found, rfl⟩

theorem mapError_eq_ok {x : Except Fault Value} {v : Value} :
    x.mapError change = .ok v ↔ x = .ok v := by
  cases x <;> simp [Except.mapError]

theorem Host.BringsNoCode.mapFaults (codeless : host.BringsNoCode) :
    (host.mapFaults change).BringsNoCode := by
  intro name native known args site m roots
  obtain ⟨original, found, rfl⟩ := exists_of_mapFaults known
  simp only [mapError_eq_ok]
  exact codeless name original found args site m roots

/-- If every fault is replaced by the same, natives raise no other. -/
theorem Host.raises_mapFaults {mark : Fault} {name : String} {native : Native} {args : List Value}
    {site : ScopeId} {m : Machine} {cause : Fault}
    (known : host.mapFaults (fun _ => mark) name = some native)
    (failed : (native args site m).1 = .error cause) : cause = mark := by
  obtain ⟨original, -, rfl⟩ := exists_of_mapFaults known
  cases answer : (original args site m).1 with
  | ok v => simp [answer, Except.mapError] at failed
  | error c => simpa [answer, Except.mapError] using failed.symm

end

/-- The only native function is `print`, under whatever names. -/
def Host.OnlyPrints (host : Host) : Prop :=
  ∀ name native, host name = some native → native = Native.print

theorem Host.onlyPrints_standard : Host.standard.OnlyPrints := fun _ _ => eq_print_of_standard

theorem Host.OnlyPrints.bringsNoCode {host : Host} (prints : host.OnlyPrints) :
    host.BringsNoCode := by
  intro name native known args site m roots starts answer id closure reached
  obtain rfl := prints name native known
  obtain ⟨o, start | ⟨v, printed, rfl⟩, further⟩ := reached.exists_root
  · refine ⟨id, closure, further.of_roots ?_, rfl, rfl⟩
    rintro _ rfl
    exact .root start
  · -- What `print` gives leads to no function.
    have nothing : answer.2.store.Familiar (fun _ => False) (.value v) :=
      familiar_plain (Native.identity?_print printed)
    exact absurd further (nothing id closure)

theorem bringsNoCode_standard : Host.standard.BringsNoCode := Host.onlyPrints_standard.bringsNoCode

end Eval

namespace Setup

open Eval

/-- The same setup with native functions that raise other faults. -/
def mapFaults (setup : Setup) (change : Fault → Fault) : Setup :=
  { setup with host := setup.host.mapFaults change }

/-- A native function raised the fault that a run of a program ends with: whatever native functions
raise in its stead, the run ends with that. -/
def RaisedByNative (setup : Setup) (env : ScopeId) (program : Program) (machine : Machine)
    (d : Diagnostic) : Prop :=
  ∃ cause span, Fault.diagnostic ⟨cause, span⟩ = d ∧ ∀ change,
    ((setup.mapFaults change).evalProgram env program machine).1 =
      .failure (Fault.diagnostic ⟨change cause, span⟩)

end Setup

end Scriptlet
