import Scriptlet.Proofs.Scope.Chain

/-!
# Histories of scopes

Whoever works with scopes holds handles to them, and does one operation after the other: makes a
scope, copies a handle, declares, assigns, reads, or asks for the owner of a name. Only scopes to
which there is a handle can be given as parents, so that in every state that can be reached each
scope was made after its parent. All laws of scopes follow from this (`scopes_lawful`).
-/
namespace Scriptlet

namespace Store

/-- Scopes, and the handles to them that were given out. Several handles may lead to one scope. -/
structure Holding where
  store : Store
  handles : List ScopeId

/-- What can be done with scopes, through a handle to one of them. -/
inductive Operation where
  | root
  | child (parent : ScopeId)
  | copy (id : ScopeId)
  | declare (id : ScopeId) (name : String) (value : Value) (constant : Bool)
  | assign (id : ScopeId) (name : String) (value : Value)
  | get (id : ScopeId) (name : String)
  | resolve (id : ScopeId) (name : String)

namespace Operation

/-- What an operation gives back. -/
inductive Answer where
  | handle (id : ScopeId)
  | value (v : Value)
  /-- No scope owns the name. -/
  | ownerless

/-- The handle that an operation needs. -/
def handle? : Operation → Option ScopeId
  | root => none
  | child id | copy id | declare id _ _ _ | assign id _ _ | get id _ | resolve id _ => some id

def apply (op : Operation) (state : Holding) : Except ScopeFault Answer × Holding :=
  match op, state with
  | root, ⟨store, handles⟩ =>
    let (id, store) := store.create none
    (.ok (.handle id), ⟨store, id :: handles⟩)
  | child parent, ⟨store, handles⟩ =>
    let (id, store) := store.create (some parent)
    (.ok (.handle id), ⟨store, id :: handles⟩)
  | copy id, ⟨store, handles⟩ => (.ok (.handle id), ⟨store, id :: handles⟩)
  | declare id name value constant, ⟨store, handles⟩ =>
    match store.declare id name value constant with
    | .ok store => (.ok (.value value), ⟨store, handles⟩)
    | .error fault => (.error fault, ⟨store, handles⟩)
  | assign id name value, ⟨store, handles⟩ =>
    match store.assign id name value with
    | .ok store => (.ok (.value value), ⟨store, handles⟩)
    | .error fault => (.error fault, ⟨store, handles⟩)
  | get id name, ⟨store, handles⟩ => ((store.get id name).map .value, ⟨store, handles⟩)
  | resolve id name, ⟨store, handles⟩ =>
    match store.resolve? id name with
    | some owner => (.ok (.handle owner), ⟨store, owner :: handles⟩)
    | none => (.ok .ownerless, ⟨store, handles⟩)

end Operation

/-- The states that operations lead to from the store without scopes. -/
inductive Reached : Holding → Prop
  | start : Reached ⟨.empty, []⟩
  | next {state} (reached : Reached state) (op : Operation)
      (held : ∀ id ∈ op.handle?, id ∈ state.handles) : Reached (op.apply state).2

/-- Parents come before their children, and handles lead to scopes that were made. -/
structure Holding.Orderly (state : Holding) : Prop where
  rooted : state.store.Rooted
  made : ∀ id ∈ state.handles, id < state.store.scopes.size

variable {state : Holding} {store : Store} {handles : List ScopeId} {id owner : ScopeId} {x : String}

theorem rooted_empty : Store.empty.Rooted := by
  intro id parent outward
  simp [scope, empty] at outward

/-- The owner of a name binds it, so that it was made. -/
theorem Rooted.binds_of_resolve? (rooted : store.Rooted) (resolved : store.resolve? id x = some owner) :
    (store.scope owner).binds x := by
  obtain ⟨chain, way, -⟩ := rooted.outward id
  rw [rooted.resolve?_eq way] at resolved
  exact (List.find?_eq_some_iff_append.mp resolved).1

theorem lt_size_of_binds (binds : (store.scope id).binds x) : id < store.scopes.size := by
  obtain ⟨binding, found⟩ := Option.isSome_iff_exists.mp binds
  exact lt_size_of_find? found

/-- A new scope has the next number, and a parent with a smaller one. -/
theorem Holding.Orderly.create (orderly : Holding.Orderly ⟨store, handles⟩) {parent : Option ScopeId}
    (held : ∀ outer ∈ parent, outer ∈ handles) :
    Holding.Orderly ⟨(store.create parent).2, (store.create parent).1 :: handles⟩ where
  rooted := orderly.rooted.create fun outer member => orderly.made outer (held outer member)
  made := by
    have grown : (store.create parent).2.scopes.size = store.scopes.size + 1 := by
      simp [Store.create]
    intro id member
    rw [grown]
    rcases List.mem_cons.mp member with rfl | old
    · exact Nat.lt_succ_self _
    · exact Nat.lt_succ_of_lt (orderly.made id old)

/-- What one operation leaves in order. -/
theorem Holding.Orderly.apply (orderly : state.Orderly) (op : Operation)
    (held : ∀ id ∈ op.handle?, id ∈ state.handles) : (op.apply state).2.Orderly := by
  obtain ⟨store, handles⟩ := state
  cases op with
  | root => exact orderly.create nofun
  | child parent => exact orderly.create held
  | copy id =>
    refine ⟨orderly.rooted, fun other member => ?_⟩
    rcases List.mem_cons.mp member with rfl | old
    · exact orderly.made _ (held _ rfl)
    · exact orderly.made _ old
  | declare id name value constant =>
    simp only [Operation.apply]
    split
    · next later done =>
      obtain ⟨-, rfl⟩ := declare_eq_ok.mp done
      refine ⟨orderly.rooted.of_parents (parent_bind _ _ _), fun other member => ?_⟩
      exact (size_modify store id _).symm ▸ orderly.made other member
    · exact orderly
  | assign id name value =>
    simp only [Operation.apply]
    split
    · next later done =>
      obtain ⟨-, rfl⟩ := assign_eq_ok.mp done
      refine ⟨orderly.rooted.of_parents (parent_set _ _), fun other member => ?_⟩
      exact (size_set id name value).symm ▸ orderly.made other member
    · exact orderly
  | get id name => exact orderly
  | resolve id name =>
    simp only [Operation.apply]
    split
    · next owner resolved =>
      refine ⟨orderly.rooted, fun other member => ?_⟩
      rcases List.mem_cons.mp member with rfl | old
      · exact lt_size_of_binds (orderly.rooted.binds_of_resolve? resolved)
      · exact orderly.made _ old
    · exact orderly

theorem Reached.orderly (reached : Reached state) : state.Orderly := by
  induction reached with
  | start => exact ⟨rooted_empty, nofun⟩
  | next _ op held ih => exact ih.apply op held

/-! When operations fail. -/

theorem lookup?_eq_none_iff (rooted : store.Rooted) :
    store.lookup? id x = none ↔ store.resolve? id x = none := by
  cases resolved : store.resolve? id x with
  | none => simp [lookup?, resolved]
  | some owner =>
    rw [lookup?_of_resolve? resolved]
    have binds := rooted.binds_of_resolve? resolved
    rw [Scope.binds, Option.isSome_iff_ne_none] at binds
    simpa using binds

theorem assign_undefined_iff (rooted : store.Rooted) (value : Value) :
    store.assign id x value = .error (.undefined x) ↔ store.resolve? id x = none := by
  rw [← lookup?_eq_none_iff rooted, assign, assignFault?]
  cases store.lookup? id x with
  | none => simp
  | some binding => cases flag : binding.constant <;> simp [flag]

theorem get_fails_iff (rooted : store.Rooted) :
    (∃ fault, store.get id x = .error fault) ↔ store.resolve? id x = none := by
  rw [← lookup?_eq_none_iff rooted, get]
  cases store.lookup? id x <;> simp

theorem assign_constant_iff (value : Value) :
    store.assign id x value = .error (.constantReassignment x) ↔
      ∃ owner binding, store.resolve? id x = some owner ∧
        (store.scope owner).find? x = some binding ∧ binding.constant = true := by
  have flagged : store.assign id x value = .error (.constantReassignment x) ↔
      ∃ binding, store.lookup? id x = some binding ∧ binding.constant = true := by
    rw [assign, assignFault?]
    cases store.lookup? id x with
    | none => simp
    | some binding => cases flag : binding.constant <;> simp [flag]
  rw [flagged]
  constructor
  · rintro ⟨binding, found, constant⟩
    obtain ⟨owner, resolved, bound⟩ := find?_of_lookup? found
    exact ⟨owner, binding, resolved, bound, constant⟩
  · rintro ⟨owner, binding, resolved, bound, constant⟩
    exact ⟨binding, (lookup?_of_resolve? resolved).trans bound, constant⟩

theorem declare_fails_iff (value : Value) (constant : Bool) :
    (∃ fault, store.declare id x value constant = .error fault) ↔ (store.scope id).binds x := by
  rw [declare, declareFault?]
  cases (store.scope id).binds x <;> simp

theorem Operation.apply_of_error {op : Operation} {fault : ScopeFault}
    (failed : (op.apply state).1 = .error fault) : (op.apply state).2 = state := by
  obtain ⟨store, handles⟩ := state
  cases op with
  | root | child | copy => cases failed
  | get => rfl
  | declare | assign | resolve =>
    simp only [apply] at failed ⊢
    split at failed
    · cases failed
    · rfl

/-- **Laws of the scope chain.** In every state that operations lead to, whatever handles are used:
the way outward from a scope ends, and a name belongs to the first scope on it that binds it; a
walk that may be as long as the way finds just this scope. What was assigned is read wherever the
name belongs to the scope that was written, what was declared wherever that scope is on the way and
no scope before it binds the name, and nothing else is read differently. An assignment fails as
undefined, and reading fails, just if the name has no owner; it fails as a change of a constant just
if its owner holds it constant; a declaration fails just if the scope itself binds the name. What
fails changes nothing. -/
theorem scopes_lawful (reached : Reached ⟨store, handles⟩) :
    (∀ e ∈ handles, ∃ chain, store.Outward e chain ∧
      (∀ other, store.Outward e other → other = chain) ∧
      ∀ x, store.resolve? e x = (chain.find? fun id => (store.scope id).binds x) ∧
        ∀ count, chain.length ≤ count → store.resolveWithin x count e = store.resolve? e x) ∧
    (∀ e ∈ handles, ∀ x v later, store.assign e x v = .ok later → ∀ e' ∈ handles, ∀ y,
      (y = x ∧ store.resolve? e' x = store.resolve? e x → later.get e' y = .ok v) ∧
        (¬ (y = x ∧ store.resolve? e' x = store.resolve? e x) →
          later.get e' y = store.get e' y)) ∧
    (∀ e ∈ handles, ∀ x v constant later, store.declare e x v constant = .ok later →
      ∀ e' ∈ handles, ∀ y,
        (y = x ∧ store.Exposes e' e x → later.get e' y = .ok v) ∧
          (¬ (y = x ∧ store.Exposes e' e x) → later.get e' y = store.get e' y)) ∧
    (∀ e ∈ handles, ∀ x v,
      (store.assign e x v = .error (.undefined x) ↔ store.resolve? e x = none) ∧
      ((∃ fault, store.get e x = .error fault) ↔ store.resolve? e x = none) ∧
      (store.assign e x v = .error (.constantReassignment x) ↔
        ∃ owner binding, store.resolve? e x = some owner ∧
          (store.scope owner).find? x = some binding ∧ binding.constant = true) ∧
      ∀ constant, (∃ fault, store.declare e x v constant = .error fault) ↔
        (store.scope e).binds x) ∧
    ∀ (op : Operation) fault, (op.apply ⟨store, handles⟩).1 = .error fault →
      (op.apply ⟨store, handles⟩).2 = ⟨store, handles⟩ := by
  have orderly := reached.orderly
  have rooted : store.Rooted := orderly.rooted
  refine ⟨?_, ?_, ?_, ?_, fun _ _ => Operation.apply_of_error⟩
  · intro e _
    obtain ⟨chain, way, -⟩ := rooted.outward e
    refine ⟨chain, way, fun _ => way.unique, fun x => ⟨rooted.resolve?_eq way x, ?_⟩⟩
    intro count enough
    rw [way.resolveWithin_eq x enough, rooted.resolve?_eq way]
  · intro e _ x v later done e' _ y
    exact get_assign done e' y
  · intro e held x v constant later done e' _ y
    exact rooted.get_declare (orderly.made e held) done e' y
  · intro e _ x v
    exact ⟨assign_undefined_iff rooted v, get_fails_iff rooted, assign_constant_iff v,
      declare_fails_iff v⟩

/-- A name of the outer scope is assigned through a handle to the inner one, which a declaration of
the same name hides afterwards from those who look from inside. -/
theorem scopes_lawful_shadowing :
    let declared := (Store.empty.create none).2.bind 0 "x" (.boolean true) false
    let store := (declared.create (some 0)).2
    Reached ⟨store, [1, 0]⟩ ∧
      store.assign 1 "x" .null = .ok (store.set 1 "x" .null) ∧
      (store.set 1 "x" .null).get 0 "x" = .ok .null ∧
      store.declare 1 "x" .null true = .ok (store.bind 1 "x" .null true) ∧
      (store.bind 1 "x" .null true).get 1 "x" = .ok .null ∧
      (store.bind 1 "x" .null true).get 0 "x" = store.get 0 "x" := by
  intro declared store
  have created : (0 : ScopeId) ∈ [0] := List.mem_singleton_self 0
  have reached : Reached ⟨store, [1, 0]⟩ :=
    ((Reached.start.next .root nofun).next (.declare 0 "x" (.boolean true) false)
      (fun _ named => Option.mem_some.mp named ▸ created)).next (.child 0)
      (fun _ named => Option.mem_some.mp named ▸ created)
  have law := scopes_lawful reached
  have assigned : store.assign 1 "x" .null = .ok (store.set 1 "x" .null) := rfl
  have hidden : store.declare 1 "x" .null true = .ok (store.bind 1 "x" .null true) := rfl
  have inner : store.Exposes 1 1 "x" := ⟨[], [0], .child rfl (.root rfl), nofun⟩
  have outer : ¬ store.Exposes 0 1 "x" := by
    rintro ⟨before, after, way, -⟩
    have alone : store.Outward 0 [0] := .root rfl
    have split := alone.unique way
    cases before <;> simp at split
  exact ⟨reached, assigned,
    (law.2.1 1 (by simp) "x" .null _ assigned 0 (by simp) "x").1 ⟨rfl, rfl⟩, hidden,
    (law.2.2.1 1 (by simp) "x" .null true _ hidden 1 (by simp) "x").1 ⟨rfl, inner⟩,
    (law.2.2.1 1 (by simp) "x" .null true _ hidden 0 (by simp) "x").2 fun h => outer h.2⟩

end Store

end Scriptlet
