import Scriptlet.Proofs.Eval.Diagnosis
import Scriptlet.Proofs.Syntax.Tiling.Placement

/-!
# Functions of a kind

A run executes its program, and the bodies of functions that it finds through bindings, members,
assignments and results. Where those at hand at the start are all of a kind, and the declarations of
the program make no others, it finds no others (`acquaintance`). The contract carries a relation
between machines along, which has to hold only of operations of code of that kind (`Frame`).
-/
namespace Scriptlet

namespace Eval

open Store

/-- The native functions bring no functions but of a kind: if all that can be reached from the scope
of the call and the arguments are of that kind, so are all that can be reached from the result, and
nothing that led only to such functions leads to others. -/
def Host.BringsOnly (host : Host) (Knows : Closure → Prop) : Prop :=
  ∀ name native, host name = some native → ∀ args site m,
    (∀ r, Native.Starts args site r → m.store.Familiar Knows r) →
      let answer := native args site m
      (∀ r, m.store.Familiar Knows r → answer.2.store.Familiar Knows r) ∧
        ∀ v, answer.1 = .ok v → answer.2.store.Familiar Knows (.value v)

/-- Nothing is done to the scopes by `print`, and its result leads nowhere. -/
theorem Host.OnlyPrints.bringsOnly {host : Host} (prints : host.OnlyPrints)
    (Knows : Closure → Prop) : host.BringsOnly Knows := by
  intro name native known args site m _
  obtain rfl := prints name native known
  exact ⟨fun _ familiar => familiar, fun _ printed =>
    familiar_plain (Native.identity?_print printed)⟩

/-- A relation between machines that holds of every operation of the evaluator, of assignments only
where their nodes are permitted. -/
structure Frame (host : Host) (Permits : Node → Prop) where
  Stays : Machine → Machine → Prop
  refl : ∀ m, Stays m m
  trans : ∀ {m n o}, Stays m n → Stays n o → Stays m o
  newScope : ∀ m parent, Stays m (m.newScope (some parent)).2
  newIdentity : ∀ m, Stays m m.newIdentity.2
  declare : ∀ {m scope name} v constant, m.store.declareFault? scope name = none →
    Stays m { m with store := m.store.bind scope name v constant }
  assign : ∀ {m scope name place value span} v,
    Permits (.expr (.assign (.name name place) value span)) →
      m.store.assignFault? scope name = none →
        Stays m { m with store := m.store.set scope name v }
  native : ∀ {name native}, host name = some native → ∀ args site m,
    Stays m (native args site m).2

/-- The relation that always holds. -/
def Frame.trivial (host : Host) (Permits : Node → Prop) : Frame host Permits where
  Stays _ _ := True
  refl _ := .intro
  trans _ _ := .intro
  newScope _ _ := .intro
  newIdentity _ := .intro
  declare _ _ _ := .intro
  assign _ _ _ := .intro
  native _ _ _ _ := .intro

/-- Functions that a run may come upon: their bodies are made of permitted nodes alone, and a
declaration that is made of such nodes makes one of them. -/
structure Circle (Permits : Node → Prop) where
  Knows : Closure → Prop
  body : ∀ {closure}, Knows closure → ∀ s ∈ closure.body, (Node.stmt s).Throughout Permits
  declared : ∀ {name params body span} scope,
    (Node.stmt (.function name params body span)).Throughout Permits →
      Knows ⟨name, params, body, scope⟩

/-- The contract that a run of permitted nodes meets only functions of a kind, and that a relation
holds between its beginning and its end. -/
def acquaintance {host : Host} {Permits : Node → Prop} (K : Circle Permits)
    (brings : host.BringsOnly K.Knows) (F : Frame host Permits) : Contract host where
  Holds _ := True
  Future m n := (∀ r, m.store.Familiar K.Knows r → n.store.Familiar K.Knows r) ∧ F.Stays m n
  Sees m id := m.store.Familiar K.Knows (.scope id)
  Owns m id := m.store.Familiar K.Knows (.scope id)
  Has m v := m.store.Familiar K.Knows (.value v)
  Knows := K.Knows
  Code := Node.Throughout Permits
  Raised _ := True
  refl m := ⟨fun _ h => h, F.refl m⟩
  trans first second :=
    ⟨fun r h => second.1 r (first.1 r h), F.trans first.2 second.2⟩
  sees_later future h := future.1 _ h
  owns_later future h := future.1 _ h
  has_later future h := future.1 _ h
  sees_of_owns h := h
  plain none := familiar_plain none
  bound _ h found := by
    obtain ⟨owner, resolved, bound⟩ := find?_of_lookup? found
    exact (h.of_reachable (reachable_of_resolveWithin (.root rfl) resolved)).next (.binding bound)
  member h member := h.next (.entry member)
  function h := ⟨h.next .closure, h _ _ (.root rfl)⟩
  body := K.body
  part throughout child _ holds := throughout _ (.head child holds)
  newScope {m parent} _ h := by
    have future : ∀ r, m.store.Familiar K.Knows r →
        (m.newScope (some parent)).2.store.Familiar K.Knows r :=
      fun r familiar => familiar.change (by rintro _ rfl; exact h) fun _ _ => next_create
    refine ⟨trivial, ⟨future, F.newScope m parent⟩, future _ ?_⟩
    exact familiar_of_next nofun fun _ step => absurd (lt_size_of_next step) (Nat.lt_irrefl _)
  newObject {m entries} _ has := by
    refine ⟨trivial, ⟨fun _ h => h, F.newIdentity m⟩, familiar_of_next nofun ?_⟩
    intro o step
    cases step with
    | entry member => exact has _ member
  newFunction {m scope name params body span} _ h code := by
    refine ⟨trivial, ⟨fun _ h => h, F.newIdentity m⟩, familiar_of_next ?_ ?_⟩
    · rintro id closure ⟨⟩
      exact K.declared scope code
    · intro o step
      cases step
      exact h
  declare {m scope name v} constant _ _ has free :=
    ⟨trivial, fun _ h => h.bind has scope name constant, F.declare v constant free⟩
  assign {m scope name place value span v} _ _ has code allowed :=
    ⟨trivial, fun _ h => h.set has scope name, F.assign v (code _ .refl) allowed⟩
  native {name native args site m} known _ h has := by
    have starts : ∀ r, Native.Starts args site r → m.store.Familiar K.Knows r := by
      rintro r (rfl | ⟨a, member, rfl⟩)
      · exact h
      · exact has a member
    obtain ⟨still, result⟩ := brings name native known args site m starts
    exact ⟨trivial, ⟨still, F.native known args site m⟩, result, fun _ _ => trivial⟩

variable {host : Host} {Permits : Node → Prop}

/-- A run of a program of permitted nodes from a scope that leads only to functions of a kind. -/
theorem evalProgram_acquainted (K : Circle Permits) (brings : host.BringsOnly K.Knows)
    (F : Frame host Permits) (depth : Nat) {env : ScopeId} {program : Program} {machine : Machine}
    (code : ∀ s ∈ program, (Node.stmt s).Throughout Permits)
    (familiar : machine.store.Familiar K.Knows (.scope env)) :
    let C := acquaintance K brings F
    C.Kept C.Has machine (evalProgram host depth env program machine) := by
  intro C
  have nothing : C.Has machine .null := C.plain rfl
  exact evalSequence_keeps (invoke_keeps C depth) env program code familiar nothing trivial

/-- A new global scope binds the words for values and `print`, and has no parent. -/
theorem scope_newGlobalScope (machine : Machine) :
    machine.newGlobalScope.2.store.scope machine.newGlobalScope.1 =
      ⟨Machine.globalBindings machine.nextIdentity, none⟩ := by
  have made : machine.store.scopes.size < (machine.store.create none).2.scopes.size := by
    simp [Store.create]
  have found := scope_modify _ machine.store.scopes.size machine.store.scopes.size
    (fun scope => { scope with bindings := Machine.globalBindings machine.nextIdentity }) made
  rw [if_pos rfl, scope_create, if_pos rfl] at found
  exact found

/-- What a new global scope binds has no identity, but for its `print`. -/
theorem globalBindings_cases {printId : Identity} {name : String} {binding : Binding}
    (bound : (Machine.globalBindings printId).lookup name = some binding) :
    binding.value.identity? = none ∨ binding.value = .native printId Native.printName := by
  obtain ⟨front, back, split, -⟩ := List.lookup_eq_some_iff.mp bound
  have member := split ▸ List.mem_append_right front List.mem_cons_self
  simp only [Machine.globalBindings, List.mem_cons, List.not_mem_nil, or_false,
    Prod.mk.injEq] at member
  rcases member with ⟨-, rfl⟩ | ⟨-, rfl⟩ | ⟨-, rfl⟩ | ⟨-, rfl⟩
  · exact .inl rfl
  · exact .inl rfl
  · exact .inl rfl
  · exact .inr rfl

/-- A new global scope leads to no declared function. -/
theorem familiar_newGlobalScope {Knows : Closure → Prop} (machine : Machine) :
    machine.newGlobalScope.2.store.Familiar Knows (.scope machine.newGlobalScope.1) := by
  have scope := scope_newGlobalScope machine
  refine familiar_of_next nofun fun o step => ?_
  cases step with
  | parent outward =>
    rw [scope] at outward
    cases outward
  | binding bound =>
    rw [scope] at bound
    rcases globalBindings_cases bound with none | print
    · exact familiar_plain none
    · rw [print]
      exact familiar_of_next nofun nofun

end Eval

end Scriptlet
