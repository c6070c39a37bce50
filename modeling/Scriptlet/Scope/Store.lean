import Scriptlet.Scope.Fault
import Scriptlet.Text.Quoted
import Scriptlet.Value.Basic

/-!
# Scopes

A scope holds bindings of its own and may have a parent; names are looked up from the inside out.
The store numbers all scopes in the order in which they were made and never drops one, so that a
scope stays what it is for every function that was declared in it. A parent is made before its
children: its number is smaller, and a walk from scope `id` outward passes at most `id + 1` scopes.
-/
namespace Scriptlet

structure Binding where
  value : Value
  constant : Bool
  deriving Repr, Inhabited

structure Scope where
  bindings : List (String × Binding)
  parent : Option ScopeId
  deriving Repr, Inhabited

namespace Scope

def find? (scope : Scope) (name : String) : Option Binding := scope.bindings.lookup name

def binds (scope : Scope) (name : String) : Bool := (scope.find? name).isSome

/-- Adds a binding of a name that is not bound yet. -/
def add (scope : Scope) (name : String) (binding : Binding) : Scope :=
  { scope with bindings := scope.bindings ++ [(name, binding)] }

/-- Replaces the value of a name and leaves everything else, also the flag, as it is. -/
def update (scope : Scope) (name : String) (value : Value) : Scope :=
  let change := fun (entry : String × Binding) =>
    if entry.1 = name then (name, { entry.2 with value }) else entry
  { scope with bindings := scope.bindings.map change }

/-- The names of a scope in the order of their code points. -/
def names (scope : Scope) : List String :=
  (scope.bindings.map (·.1)).mergeSort fun a b => !decide (b < a)

/-- What a scope is printed as. Values are left out, since a function may lead back to its scope. -/
def describe (scope : Scope) : String :=
  "Environment \x7b names: [" ++ ", ".intercalate (scope.names.map Text.quote) ++
    "], has_parent: " ++ (if scope.parent.isSome then "true" else "false") ++ " \x7d"

theorem find?_add (scope : Scope) (name other : String) (binding : Binding) :
    (scope.add name binding).find? other =
      (scope.find? other).or (if other = name then some binding else none) := by
  by_cases h : other = name
  · simp [find?, add, List.lookup_append, h]
  · simp [find?, add, List.lookup_append, h, List.lookup_cons, beq_eq_false_iff_ne.mpr h]

theorem find?_update (scope : Scope) (name other : String) (value : Value) :
    (scope.update name value).find? other =
      if other = name then (scope.find? name).map fun binding => { binding with value }
      else scope.find? other := by
  obtain ⟨bindings, parent⟩ := scope
  simp only [find?, update]
  induction bindings with
  | nil => simp
  | cons entry rest ih =>
    obtain ⟨k, binding⟩ := entry
    simp only [List.map_cons, List.lookup_cons]
    by_cases hk : k = name
    · subst hk
      by_cases h : other = k
      · simp [h]
      · simp only [h, if_false] at ih
        simp [h, List.lookup_cons, beq_eq_false_iff_ne.mpr h, ih]
    · by_cases h : other = k
      · subst h
        simp [hk]
      · by_cases hn : other = name
        · subst hn
          simp only [if_true] at ih
          simp [hk, List.lookup_cons, beq_eq_false_iff_ne.mpr h, ih]
        · simp only [hn, if_false] at ih
          simp [hk, hn, List.lookup_cons, beq_eq_false_iff_ne.mpr h, ih]

theorem binds_update (scope : Scope) (name other : String) (value : Value) :
    (scope.update name value).binds other = scope.binds other := by
  rw [binds, find?_update]
  split
  · next h => simp [binds, h]
  · rfl

end Scope

structure Store where
  scopes : Array Scope
  deriving Repr, Inhabited

namespace Store

def empty : Store := ⟨#[]⟩

/-- The scope of a number. A number that was not given out yet stands for a scope without
bindings. -/
def scope (store : Store) (id : ScopeId) : Scope := store.scopes.getD id ⟨[], none⟩

/-- Makes a scope without bindings, and gives its number. -/
def create : Store → (parent : Option ScopeId) → ScopeId × Store
  | ⟨scopes⟩, parent => (scopes.size, ⟨scopes.push ⟨[], parent⟩⟩)

def modify : Store → ScopeId → (Scope → Scope) → Store
  | ⟨scopes⟩, id, change => ⟨scopes.modify id change⟩

theorem scope_create (store : Store) (parent : Option ScopeId) (id : ScopeId) :
    (store.create parent).2.scope id =
      if id = store.scopes.size then ⟨[], parent⟩ else store.scope id := by
  simp only [create, scope, Array.getD_eq_getD_getElem?, Array.getElem?_push]
  split <;> simp

theorem scope_modify (store : Store) (id other : ScopeId) (change : Scope → Scope)
    (made : id < store.scopes.size) :
    (store.modify id change).scope other =
      if other = id then change (store.scope id) else store.scope other := by
  simp only [modify, scope, Array.getD_eq_getD_getElem?, Array.getElem?_modify]
  by_cases h : other = id
  · subst h
    simp [made]
  · simp [h, Ne.symm h]

/-- The first of at most `count` scopes from `id` outward that binds a name. -/
def resolveWithin (store : Store) (name : String) : (count : Nat) → ScopeId → Option ScopeId
  | 0, _ => none
  | count + 1, id =>
    let scope := store.scope id
    if scope.binds name then some id else scope.parent.bind (store.resolveWithin name count)

/-- The scope that owns a name as seen from scope `id`. -/
def resolve? (store : Store) (id : ScopeId) (name : String) : Option ScopeId :=
  store.resolveWithin name (id + 1) id

/-- The binding that a name has as seen from scope `id`. -/
def lookup? (store : Store) (id : ScopeId) (name : String) : Option Binding := do
  let owner ← store.resolve? id name
  (store.scope owner).find? name

def get (store : Store) (id : ScopeId) (name : String) : Except ScopeFault Value :=
  match store.lookup? id name with
  | some binding => .ok binding.value
  | none => .error (.undefined name)

def isConstant (store : Store) (id : ScopeId) (name : String) : Bool :=
  (store.lookup? id name).any (·.constant)

/-- Why a name cannot be declared: a scope binds a name once. Names of outer scopes may be bound
again. -/
def declareFault? (store : Store) (id : ScopeId) (name : String) : Option ScopeFault :=
  if (store.scope id).binds name then some (.redeclaration name) else none

/-- Why a name cannot be assigned: no scope owns it, or the one that does holds it constant. -/
def assignFault? (store : Store) (id : ScopeId) (name : String) : Option ScopeFault :=
  match store.lookup? id name with
  | none => some (.undefined name)
  | some binding => if binding.constant then some (.constantReassignment name) else none

/-- Adds a binding to scope `id` itself. -/
def bind (store : Store) (id : ScopeId) (name : String) (value : Value) (constant : Bool) :
    Store :=
  store.modify id (·.add name ⟨value, constant⟩)

/-- Gives a name a new value in the scope that owns it. -/
def set (store : Store) (id : ScopeId) (name : String) (value : Value) : Store :=
  match store.resolve? id name with
  | none => store
  | some owner => store.modify owner (·.update name value)

def declare (store : Store) (id : ScopeId) (name : String) (value : Value) (constant : Bool) :
    Except ScopeFault Store :=
  match store.declareFault? id name with
  | some fault => .error fault
  | none => .ok (store.bind id name value constant)

def assign (store : Store) (id : ScopeId) (name : String) (value : Value) :
    Except ScopeFault Store :=
  match store.assignFault? id name with
  | some fault => .error fault
  | none => .ok (store.set id name value)

end Store

end Scriptlet
