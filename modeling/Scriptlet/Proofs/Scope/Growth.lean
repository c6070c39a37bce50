import Mathlib.Logic.Relation
import Scriptlet.Scope.Store

/-!
# How the scopes of a store change

A store changes in three ways only: a scope is made, a name is declared, a name is assigned. Along
any number of such steps a store grows (`Store.grows_of_steps`): no scope loses its parent or a name,
no flag of a binding changes, and a constant keeps its value. This is what makes the flag of a
binding, once declared, decide about every later assignment that finds it (`assignFault?_owner`).
-/
namespace Scriptlet

namespace Store

variable {store before middle after : Store}

/-- One change of a store. A declaration or an assignment that is at fault changes nothing, so that
it is no step. -/
inductive Step : Store → Store → Prop
  | create (store : Store) (parent : Option ScopeId) : Step store (store.create parent).2
  | declare (store : Store) (id : ScopeId) (name : String) (value : Value) (constant : Bool)
      (free : store.declareFault? id name = none) : Step store (store.bind id name value constant)
  | assign (store : Store) (id : ScopeId) (name : String) (value : Value)
      (allowed : store.assignFault? id name = none) : Step store (store.set id name value)

/-- Any number of changes, one after the other. -/
abbrev Steps : Store → Store → Prop := Relation.ReflTransGen Step

theorem size_modify (store : Store) (id : ScopeId) (change : Scope → Scope) :
    (store.modify id change).scopes.size = store.scopes.size := by
  simp [modify]

/-- A change of a scope that was never made is no change. -/
theorem scope_modify_of_le (store : Store) (id other : ScopeId) (change : Scope → Scope)
    (unmade : store.scopes.size ≤ id) : (store.modify id change).scope other = store.scope other := by
  simp only [modify, scope, Array.getD_eq_getD_getElem?, Array.getElem?_modify]
  by_cases h : id = other
  · subst h
    simp [Nat.not_lt.mpr unmade]
  · simp [h]

theorem scope_modify_of_ne (store : Store) {id other : ScopeId} (different : other ≠ id)
    (change : Scope → Scope) : (store.modify id change).scope other = store.scope other := by
  by_cases made : id < store.scopes.size
  · rw [scope_modify _ _ _ _ made, if_neg different]
  · exact scope_modify_of_le _ _ _ _ (Nat.le_of_not_lt made)

/-- A change of bindings leaves all scopes where they are. -/
theorem parent_modify (store : Store) (id other : ScopeId) {change : Scope → Scope}
    (kept : ∀ scope, (change scope).parent = scope.parent) :
    ((store.modify id change).scope other).parent = (store.scope other).parent := by
  by_cases made : id < store.scopes.size
  · rw [scope_modify _ _ _ _ made]
    split
    · next same => rw [kept, same]
    · rfl
  · rw [scope_modify_of_le _ _ _ _ (Nat.le_of_not_lt made)]

theorem scope_of_le (store : Store) (id : ScopeId) (unmade : store.scopes.size ≤ id) :
    store.scope id = ⟨[], none⟩ := by
  simp [scope, Nat.not_lt.mpr unmade]

/-- Only a scope that was made binds a name. -/
theorem lt_size_of_find? {id : ScopeId} {name : String} {binding : Binding}
    (found : (store.scope id).find? name = some binding) : id < store.scopes.size := by
  rcases Nat.lt_or_ge id store.scopes.size with made | unmade
  · exact made
  · rw [scope_of_le store id unmade] at found
    simp [Scope.find?] at found

/-- The binding that a name has in the scope that owns it is the one that is looked up. -/
theorem lookup?_of_resolve? {id owner : ScopeId} {name : String}
    (resolved : store.resolve? id name = some owner) :
    store.lookup? id name = (store.scope owner).find? name := by
  simp [lookup?, resolved]

/-- The scope that owns a name binds it. -/
theorem find?_of_lookup? {id : ScopeId} {name : String} {binding : Binding}
    (found : store.lookup? id name = some binding) :
    ∃ owner, store.resolve? id name = some owner ∧
      (store.scope owner).find? name = some binding := by
  cases resolved : store.resolve? id name with
  | none => simp [lookup?, resolved] at found
  | some owner => exact ⟨owner, rfl, by rw [← lookup?_of_resolve? resolved]; exact found⟩

/-- What a store keeps when it grows: its scopes with their parents, the bound names with their
flags, and the values of constants. -/
structure Grows (before after : Store) : Prop where
  size_le : before.scopes.size ≤ after.scopes.size
  parent_eq : ∀ id, id < before.scopes.size →
    (after.scope id).parent = (before.scope id).parent
  binding_kept : ∀ id name binding, (before.scope id).find? name = some binding →
    ∃ later, (after.scope id).find? name = some later ∧ later.constant = binding.constant ∧
      (binding.constant = true → later = binding)

theorem Grows.refl (store : Store) : store.Grows store where
  size_le := Nat.le_refl _
  parent_eq _ _ := rfl
  binding_kept _ _ binding found := ⟨binding, found, rfl, fun _ => rfl⟩

theorem Grows.trans (first : before.Grows middle) (second : middle.Grows after) :
    before.Grows after where
  size_le := Nat.le_trans first.size_le second.size_le
  parent_eq id made := by
    rw [second.parent_eq id (Nat.lt_of_lt_of_le made first.size_le), first.parent_eq id made]
  binding_kept id name binding found := by
    obtain ⟨next, found', flag, kept⟩ := first.binding_kept id name binding found
    obtain ⟨last, found'', flag', kept'⟩ := second.binding_kept id name next found'
    refine ⟨last, found'', flag'.trans flag, ?_⟩
    intro constant
    rw [kept' (flag.trans constant), kept constant]

theorem grows_create (store : Store) (parent : Option ScopeId) :
    store.Grows (store.create parent).2 where
  size_le := by simp [create]
  parent_eq id made := by
    rw [scope_create, if_neg (Nat.ne_of_lt made)]
  binding_kept id name binding found := by
    have made := lt_size_of_find? found
    rw [scope_create, if_neg (Nat.ne_of_lt made)]
    exact ⟨binding, found, rfl, fun _ => rfl⟩

/-- A new binding goes behind those that are there, so that it hides none of them. -/
theorem grows_bind (store : Store) (id : ScopeId) (name : String) (value : Value)
    (constant : Bool) : store.Grows (store.bind id name value constant) where
  size_le := by simp [bind, size_modify]
  parent_eq other _ := parent_modify store id other fun _ => rfl
  binding_kept other bound binding found := by
    refine ⟨binding, ?_, rfl, fun _ => rfl⟩
    by_cases made : id < store.scopes.size
    · rw [bind, scope_modify _ _ _ _ made]
      split
      · next same =>
        subst same
        rw [Scope.find?_add, found, Option.some_or]
      · exact found
    · rw [bind, scope_modify_of_le _ _ _ _ (Nat.le_of_not_lt made)]
      exact found

/-- A declaration adds one name to one scope. -/
theorem binds_bind {id : ScopeId} (made : id < store.scopes.size) (name : String) (value : Value)
    (constant : Bool) (other : ScopeId) (x : String) :
    ((store.bind id name value constant).scope other).binds x ↔
      (store.scope other).binds x ∨ other = id ∧ x = name := by
  rw [bind, scope_modify _ _ _ _ made]
  split
  · next same =>
    subst same
    rw [Scope.binds, Scope.find?_add, Option.isSome_or]
    by_cases named : x = name <;> simp [named, Scope.binds]
  · next different => simp [different]

theorem binds_of_binds_bind {id other : ScopeId} {name x : String} {value : Value} {constant : Bool}
    (bound : ((store.bind id name value constant).scope other).binds x) :
    (store.scope other).binds x ∨ other = id ∧ x = name := by
  by_cases made : id < store.scopes.size
  · exact (binds_bind made name value constant other x).mp bound
  · rw [bind, scope_modify_of_le _ _ _ _ (Nat.le_of_not_lt made)] at bound
    exact .inl bound

theorem binds_set (id other : ScopeId) (name x : String) (value : Value) :
    ((store.set id name value).scope other).binds x = (store.scope other).binds x := by
  unfold set
  split
  · rfl
  · next owner _ =>
    by_cases made : owner < store.scopes.size
    · rw [scope_modify _ _ _ _ made]
      split
      · next same => rw [Scope.binds_update, same]
      · rfl
    · rw [scope_modify_of_le _ _ _ _ (Nat.le_of_not_lt made)]

theorem size_set (id : ScopeId) (name : String) (value : Value) :
    (store.set id name value).scopes.size = store.scopes.size := by
  unfold set
  split
  · rfl
  · exact size_modify _ _ _

/-- An assignment without fault goes to a binding that is no constant. -/
theorem owner_of_assignFault?_eq_none {id : ScopeId} {name : String}
    (allowed : store.assignFault? id name = none) :
    ∃ owner binding, store.resolve? id name = some owner ∧
      (store.scope owner).find? name = some binding ∧ binding.constant = false := by
  unfold assignFault? at allowed
  cases looked : store.lookup? id name with
  | none => simp [looked] at allowed
  | some binding =>
    obtain ⟨owner, resolved, found⟩ := find?_of_lookup? looked
    exact ⟨owner, binding, resolved, found, by simpa [looked] using allowed⟩

theorem grows_set (store : Store) (id : ScopeId) (name : String) (value : Value)
    (allowed : store.assignFault? id name = none) : store.Grows (store.set id name value) := by
  obtain ⟨owner, assigned, resolved, found, changeable⟩ := owner_of_assignFault?_eq_none allowed
  have made := lt_size_of_find? found
  have scope_eq : ∀ other, (store.set id name value).scope other =
      if other = owner then (store.scope owner).update name value else store.scope other := by
    intro other
    simp only [set, resolved]
    exact scope_modify _ _ _ _ made
  constructor
  · simp [set, resolved, size_modify]
  · intro other _
    simp only [set, resolved]
    exact parent_modify store owner other fun _ => rfl
  · intro other bound binding kept
    rw [scope_eq]
    by_cases same : other = owner
    · subst same
      rw [if_pos rfl, Scope.find?_update]
      by_cases named : bound = name
      · subst named
        obtain rfl : assigned = binding := Option.some.inj (found.symm.trans kept)
        refine ⟨{ assigned with value }, by simp [found], rfl, ?_⟩
        intro constant
        simp [changeable] at constant
      · exact ⟨binding, by simp [named, kept], rfl, fun _ => rfl⟩
    · exact ⟨binding, by simp [same, kept], rfl, fun _ => rfl⟩

theorem Step.grows (step : Step before after) : before.Grows after := by
  cases step with
  | create parent => exact grows_create _ parent
  | declare id name value constant _ => exact grows_bind _ id name value constant
  | assign id name value allowed => exact grows_set _ id name value allowed

theorem grows_of_steps (steps : Steps before after) : before.Grows after := by
  induction steps with
  | refl => exact Grows.refl _
  | tail _ step ih => exact ih.trans step.grows

/-- Whether an assignment is allowed depends on nothing but the flag of the binding that it finds. -/
theorem assignFault?_owner {id owner : ScopeId} {name : String} {binding : Binding}
    (resolved : store.resolve? id name = some owner)
    (found : (store.scope owner).find? name = some binding) :
    store.assignFault? id name =
      if binding.constant then some (.constantReassignment name) else none := by
  rw [assignFault?, lookup?_of_resolve? resolved, found]

end Store

end Scriptlet
