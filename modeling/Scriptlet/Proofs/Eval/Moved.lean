import Scriptlet.Eval.Native
import Scriptlet.Proofs.Renaming.Basic
import Scriptlet.Proofs.Scope.Growth
import Scriptlet.Proofs.Syntax.Moved
import Scriptlet.Proofs.Value.Resemblance

/-!
# Machines that hold moved functions

The only places in the state of a machine are those in the bodies of functions. Two machines are
`Moved` when they are the same but for these: the same scopes with the same names, flags and values,
the same identities, and the same text printed. No operation on values and no access to a scope
tells such machines apart.
-/
namespace Scriptlet

mutual

inductive Value.Moved (S T : Span → Span → Prop) : Value → Value → Prop
  | number (n : Number) : Value.Moved S T (.number n) (.number n)
  | text (s : String) : Value.Moved S T (.text s) (.text s)
  | boolean (b : Bool) : Value.Moved S T (.boolean b) (.boolean b)
  | null : Value.Moved S T .null .null
  | object {id entries others} (members : MovedEntries S T entries others) :
      Value.Moved S T (.object id entries) (.object id others)
  | function {id name params body body' scope} (of_body : MovedStmts S T body body') :
      Value.Moved S T (.function id ⟨name, params, body, scope⟩)
        (.function id ⟨name, params, body', scope⟩)
  | native (id : Identity) (name : String) : Value.Moved S T (.native id name) (.native id name)

/-- Entries with the same keys in the same order. -/
inductive MovedEntries (S T : Span → Span → Prop) : Entries → Entries → Prop
  | nil : MovedEntries S T [] []
  | cons {key v w entries others} (value : Value.Moved S T v w)
      (members : MovedEntries S T entries others) :
      MovedEntries S T ((key, v) :: entries) ((key, w) :: others)

end

variable {S T : Span → Span → Prop} {v w a b : Value} {entries others : Entries}

/-! Values. -/

/-- A value without an identity holds no function. -/
theorem Value.moved_plain (none : v.identity? = none) : v.Moved S T v := by
  cases v with
  | number n => exact .number n
  | text s => exact .text s
  | boolean b => exact .boolean b
  | null => exact .null
  | object | function | native => cases none

theorem MovedEntries.alike : ∀ {entries others : Entries}, MovedEntries S T entries others →
    entries.Alike (Value.Moved S T) others
  | _, _, .nil => .nil
  | _, _, .cons value members => .cons value members.alike

theorem movedEntries_of_alike (h : entries.Alike (Value.Moved S T) others) :
    MovedEntries S T entries others := by
  induction h with
  | nil => exact .nil
  | cons value _ members => exact .cons value members

/-- Moved values are of one kind. -/
theorem Value.Moved.resembles (h : v.Moved S T w) :
    v.Resembles Eq (Value.Moved S T) (MovedStmts S T) w := by
  cases h with
  | number | text | boolean | null => exact .plain rfl
  | object members => exact .object members.alike
  | function body => exact .function rfl body
  | native => exact .native

/-- The text of a value shows nothing of the bodies of functions. -/
theorem Value.Moved.render_eq (h : v.Moved S T w) : v.render = w.render :=
  Value.render_eq_of_resembles Value.Moved.resembles h

theorem Value.Moved.strictEqual_eq (left : v.Moved S T w) (right : a.Moved S T b) :
    v.strictEqual a = w.strictEqual b := by
  cases left <;> cases right <;> rfl

/-! Scopes and stores. -/

structure Binding.Moved (S T : Span → Span → Prop) (b c : Binding) : Prop where
  constant_eq : b.constant = c.constant
  value : b.value.Moved S T c.value

/-- The same names in the same order, with the same flags. -/
structure Scope.Moved (S T : Span → Span → Prop) (s t : Scope) : Prop where
  parent_eq : s.parent = t.parent
  bindings : List.Forall₂ (fun x y => x.1 = y.1 ∧ x.2.Moved S T y.2) s.bindings t.bindings

structure Store.Moved (S T : Span → Span → Prop) (s t : Store) : Prop where
  size_eq : s.scopes.size = t.scopes.size
  scope : ∀ id, (s.scope id).Moved S T (t.scope id)

structure Machine.Moved (S T : Span → Span → Prop) (m n : Machine) : Prop where
  store : m.store.Moved S T n.store
  nextIdentity_eq : m.nextIdentity = n.nextIdentity
  sink_eq : m.sink = n.sink

namespace Scope.Moved

variable {s t : Scope}

theorem find? (h : s.Moved S T t) (name : String) :
    Option.Rel (Binding.Moved S T) (s.find? name) (t.find? name) := by
  have same := h.bindings
  unfold Scope.find?
  generalize s.bindings = bindings at same
  generalize t.bindings = others at same
  induction same with
  | nil => exact .none
  | @cons x y _ _ first _ ih =>
    rw [List.lookup_cons, List.lookup_cons, first.1]
    cases name == y.1 with
    | true => exact .some first.2
    | false => exact ih

theorem binds_eq (h : s.Moved S T t) (name : String) : s.binds name = t.binds name := by
  unfold Scope.binds
  obtain ⟨left, right⟩ | ⟨b, c, left, right, -⟩ := optionRel_iff.mp (h.find? name)
  · rw [left, right]
  · rw [left, right]
    rfl

theorem add (h : s.Moved S T t) (name : String) {b c : Binding} (binding : b.Moved S T c) :
    (s.add name b).Moved S T (t.add name c) where
  parent_eq := h.parent_eq
  bindings := List.rel_append h.bindings (.cons ⟨rfl, binding⟩ .nil)

theorem update (h : s.Moved S T t) (name : String) (value : v.Moved S T w) :
    (s.update name v).Moved S T (t.update name w) where
  parent_eq := h.parent_eq
  bindings := by
    refine List.forall₂_map_left_iff.mpr (List.forall₂_map_right_iff.mpr (h.bindings.imp ?_))
    rintro ⟨k, b⟩ ⟨_, c⟩ ⟨rfl, same⟩
    dsimp only
    split
    · exact ⟨rfl, same.constant_eq, value⟩
    · exact ⟨rfl, same⟩

end Scope.Moved

namespace Store.Moved

variable {s t : Store}

theorem resolveWithin_eq (h : s.Moved S T t) (name : String) (count : Nat) (id : ScopeId) :
    s.resolveWithin name count id = t.resolveWithin name count id := by
  induction count generalizing id with
  | zero => rfl
  | succ count ih =>
    have further : s.resolveWithin name count = t.resolveWithin name count := funext ih
    simp only [Store.resolveWithin, (h.scope id).binds_eq name, (h.scope id).parent_eq, further]

theorem resolve?_eq (h : s.Moved S T t) (id : ScopeId) (name : String) :
    s.resolve? id name = t.resolve? id name :=
  h.resolveWithin_eq name (id + 1) id

theorem lookup? (h : s.Moved S T t) (id : ScopeId) (name : String) :
    Option.Rel (Binding.Moved S T) (s.lookup? id name) (t.lookup? id name) := by
  unfold Store.lookup?
  rw [h.resolve?_eq]
  cases t.resolve? id name with
  | none => exact .none
  | some owner => exact (h.scope owner).find? name

theorem declareFault?_eq (h : s.Moved S T t) (id : ScopeId) (name : String) :
    s.declareFault? id name = t.declareFault? id name := by
  rw [Store.declareFault?, Store.declareFault?, (h.scope id).binds_eq name]

theorem assignFault?_eq (h : s.Moved S T t) (id : ScopeId) (name : String) :
    s.assignFault? id name = t.assignFault? id name := by
  unfold Store.assignFault?
  obtain ⟨left, right⟩ | ⟨x, y, left, right, same⟩ := optionRel_iff.mp (h.lookup? id name)
  · rw [left, right]
  · simp only [left, right, same.constant_eq]

theorem create (h : s.Moved S T t) (parent : Option ScopeId) :
    (s.create parent).1 = (t.create parent).1 ∧
      (s.create parent).2.Moved S T (t.create parent).2 := by
  refine ⟨h.size_eq, ?_, fun id => ?_⟩
  · simp only [Store.create, Array.size_push, h.size_eq]
  · rw [Store.scope_create, Store.scope_create, h.size_eq]
    split
    · exact ⟨rfl, .nil⟩
    · exact h.scope id

theorem modify (h : s.Moved S T t) (id : ScopeId) {change other : Scope → Scope}
    (kept : (change (s.scope id)).Moved S T (other (t.scope id))) :
    (s.modify id change).Moved S T (t.modify id other) := by
  refine ⟨?_, fun here => ?_⟩
  · rw [Store.size_modify, Store.size_modify, h.size_eq]
  · rcases Nat.lt_or_ge id s.scopes.size with made | unmade
    · rw [Store.scope_modify _ _ _ _ made, Store.scope_modify _ _ _ _ (h.size_eq ▸ made)]
      split
      · exact kept
      · exact h.scope here
    · rw [Store.scope_modify_of_le _ _ _ _ unmade,
        Store.scope_modify_of_le _ _ _ _ (h.size_eq ▸ unmade)]
      exact h.scope here

theorem bind (h : s.Moved S T t) (id : ScopeId) (name : String) (value : v.Moved S T w)
    (constant : Bool) : (s.bind id name v constant).Moved S T (t.bind id name w constant) :=
  h.modify id ((h.scope id).add name ⟨rfl, value⟩)

theorem set (h : s.Moved S T t) (id : ScopeId) (name : String) (value : v.Moved S T w) :
    (s.set id name v).Moved S T (t.set id name w) := by
  unfold Store.set
  rw [h.resolve?_eq]
  cases t.resolve? id name with
  | none => exact h
  | some owner => exact h.modify owner ((h.scope owner).update name value)

end Store.Moved

namespace Machine.Moved

variable {m n : Machine}

theorem newScope (h : m.Moved S T n) (parent : Option ScopeId) :
    (m.newScope parent).1 = (n.newScope parent).1 ∧
      (m.newScope parent).2.Moved S T (n.newScope parent).2 :=
  have created := h.store.create parent
  ⟨created.1, created.2, h.nextIdentity_eq, h.sink_eq⟩

theorem newIdentity (h : m.Moved S T n) :
    m.newIdentity.1 = n.newIdentity.1 ∧ m.newIdentity.2.Moved S T n.newIdentity.2 :=
  ⟨h.nextIdentity_eq, h.store, congrArg (· + 1) h.nextIdentity_eq, h.sink_eq⟩

theorem newGlobalScope (h : m.Moved S T n) :
    m.newGlobalScope.2.Moved S T n.newGlobalScope.2 := by
  have named := h.newIdentity
  have made := named.2.newScope none
  refine ⟨?_, made.2.nextIdentity_eq, made.2.sink_eq⟩
  simp only [Machine.newGlobalScope, made.1, named.1]
  refine made.2.store.modify _ ⟨(made.2.store.scope _).parent_eq, ?_⟩
  exact .cons ⟨rfl, rfl, .boolean true⟩ (.cons ⟨rfl, rfl, .boolean false⟩
    (.cons ⟨rfl, rfl, .null⟩ (.cons ⟨rfl, rfl, .native _ _⟩ .nil)))

end Machine.Moved

/-- Nothing is bound at first. -/
theorem Machine.initial_moved : Machine.initial.Moved S T Machine.initial :=
  ⟨⟨rfl, fun _ => ⟨rfl, .nil⟩⟩, rfl, rfl⟩

/-! Where all spans are related to themselves, so are all machines. -/

mutual

theorem Value.moved_self (nodes : ∀ span, S span span) (members : ∀ span, T span span) :
    ∀ v : Value, v.Moved S T v
  | .number n => .number n
  | .text s => .text s
  | .boolean b => .boolean b
  | .null => .null
  | .object _ entries => .object (movedEntries_self nodes members entries)
  | .function _ ⟨_, _, body, _⟩ => .function (movedStmts_self members body fun span _ => nodes span)
  | .native id name => .native id name

theorem movedEntries_self (nodes : ∀ span, S span span) (members : ∀ span, T span span) :
    ∀ entries : Entries, MovedEntries S T entries entries
  | [] => .nil
  | (_, value) :: rest =>
    .cons (value.moved_self nodes members) (movedEntries_self nodes members rest)

end

theorem Machine.moved_self (nodes : ∀ span, S span span) (members : ∀ span, T span span)
    (m : Machine) : m.Moved S T m where
  store := ⟨rfl, fun _ => ⟨rfl, List.forall₂_same.mpr fun entry _ =>
    ⟨rfl, rfl, entry.2.value.moved_self nodes members⟩⟩⟩
  nextIdentity_eq := rfl
  sink_eq := rfl

end Scriptlet
