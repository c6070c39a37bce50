import Scriptlet.Proofs.Padding.Value
import Scriptlet.Proofs.Renaming.Machine
import Scriptlet.Proofs.Scope.History

/-!
# Machines with one more scope

Two machines may differ by a scope that binds no name and lies between others and the scope outside
of it (`Pad`). All scopes that are made after it have numbers one higher, and some of them have it
for their parent where they would have the scope outside. Names are looked up alike on both machines
(`RelatesStore.lookup?_eq`), and what is done to one scope can be done to its twin on the other, so
that the machines never differ by more.

This needs that functions lead to scopes that were made (`Store.Closed`): parents come before their
children only as long as no function of a scope to come is called.
-/
namespace Scriptlet

/-! Stores in which nothing leads outside. -/

/-- Parents come before their children, and functions were declared in scopes that were made. -/
structure Store.Closed (store : Store) : Prop where
  rooted : store.Rooted
  bound : ∀ id, ∀ entry ∈ (store.scope id).bindings, entry.2.value.Within store.scopes.size

namespace Store

variable {store : Store} {id : ScopeId} {name : String} {v : Value} {binding : Binding}

theorem size_create (store : Store) (parent : Option ScopeId) :
    (store.create parent).2.scopes.size = store.scopes.size + 1 :=
  Array.size_push _

theorem closed_empty : Store.empty.Closed := by
  refine ⟨rooted_empty, fun id entry member => ?_⟩
  rw [scope_of_le empty id (Nat.zero_le id)] at member
  cases member

namespace Closed

theorem parent_lt (closed : store.Closed) {parent : ScopeId}
    (outward : (store.scope id).parent = some parent) : parent < store.scopes.size := by
  rcases Nat.lt_or_ge id store.scopes.size with made | unmade
  · exact Nat.lt_trans (closed.rooted id parent outward) made
  · rw [store.scope_of_le id unmade] at outward
    cases outward

theorem create (closed : store.Closed) {parent : Option ScopeId}
    (made : ∀ outer ∈ parent, outer < store.scopes.size) : (store.create parent).2.Closed where
  rooted := closed.rooted.create made
  bound id entry member := by
    rw [scope_create] at member
    rw [size_create]
    split at member
    · cases member
    · exact (closed.bound id entry member).mono (Nat.le_succ _)

theorem modify (closed : store.Closed) (id : ScopeId) {change : Scope → Scope}
    (kept : ∀ scope, (change scope).parent = scope.parent)
    (inside : ∀ entry ∈ (change (store.scope id)).bindings,
      entry.2.value.Within store.scopes.size) : (store.modify id change).Closed where
  rooted := closed.rooted.of_parents fun other => parent_modify store id other kept
  bound other entry member := by
    rw [size_modify]
    rcases Nat.lt_or_ge id store.scopes.size with made | unmade
    · rw [scope_modify _ _ _ _ made] at member
      split at member
      · exact inside entry member
      · exact closed.bound other entry member
    · rw [scope_modify_of_le _ _ _ _ unmade] at member
      exact closed.bound other entry member

theorem bind (closed : store.Closed) (within : v.Within store.scopes.size) (constant : Bool) :
    (store.bind id name v constant).Closed := by
  refine closed.modify id (fun _ => rfl) fun entry member => ?_
  rcases List.mem_append.mp member with old | new
  · exact closed.bound id entry old
  · obtain rfl := List.mem_singleton.mp new
    exact within

theorem set (closed : store.Closed) (within : v.Within store.scopes.size) :
    (store.set id name v).Closed := by
  unfold Store.set
  split
  · exact closed
  · next owner _ =>
    refine closed.modify owner (fun _ => rfl) fun entry member => ?_
    obtain ⟨old, among, rfl⟩ := List.mem_map.mp member
    dsimp only
    split
    · exact within
    · exact closed.bound owner old among

theorem find? (closed : store.Closed) (bound : (store.scope id).find? name = some binding) :
    binding.value.Within store.scopes.size := by
  obtain ⟨front, back, split, -⟩ := List.lookup_eq_some_iff.mp bound
  exact closed.bound id (name, binding) (split ▸ List.mem_append_right front List.mem_cons_self)

theorem lookup? (closed : store.Closed) (found : store.lookup? id name = some binding) :
    binding.value.Within store.scopes.size := by
  obtain ⟨owner, -, bound⟩ := find?_of_lookup? found
  exact closed.find? bound

end Closed

/-- No functions are declared in a new global scope. -/
theorem closed_newGlobalScope {machine : Machine} (closed : machine.store.Closed) :
    machine.newGlobalScope.2.store.Closed := by
  have made : (machine.store.create none).2.Closed := closed.create nofun
  refine made.modify _ (fun _ => rfl) fun entry member => ?_
  simp only [Machine.globalBindings, List.mem_cons, List.not_mem_nil, or_false] at member
  rcases member with rfl | rfl | rfl | rfl
  · exact Value.within_of_plain rfl
  · exact Value.within_of_plain rfl
  · exact Value.within_of_plain rfl
  · exact Value.within_native

end Store

/-- What a binding becomes when scopes are numbered anew. -/
def Binding.rescope (number : ScopeId → ScopeId) (b : Binding) : Binding :=
  { b with value := b.value.rescope number }

/-- A scope that one machine has and the other has not, with the scope outside of it. -/
structure Pad where
  id : ScopeId
  outer : ScopeId
  older : outer < id

namespace Pad

/-- The number of the twin of a scope on the machine with one more. -/
def past (pad : Pad) (scope : ScopeId) : ScopeId := if scope < pad.id then scope else scope + 1

/-- From a scope of the one machine and a scope of the other the same is seen: they are twins, or
the one is the additional scope and the other that outside of it. -/
def Sees (pad : Pad) (a b : ScopeId) : Prop := b = pad.past a ∨ a = pad.outer ∧ b = pad.id

/-- The same value on both machines. It leads to the first `made` scopes only. -/
structure RelatesValue (pad : Pad) (made : Nat) (v w : Value) : Prop where
  rescoped : w = v.rescope pad.past
  within : v.Within made

/-- The same names in the same order, with the same flags. -/
structure RelatesScope (pad : Pad) (s t : Scope) : Prop where
  bindings_eq : t.bindings = s.bindings.map fun entry => (entry.1, entry.2.rescope pad.past)
  parent : Option.Rel pad.Sees s.parent t.parent

/-- The second store has one more scope, without names. The scopes that were made before it have the
parents that they had. -/
structure RelatesStore (pad : Pad) (s t : Store) : Prop where
  closed : s.Closed
  made : pad.id ≤ s.scopes.size
  size_eq : t.scopes.size = s.scopes.size + 1
  scope_pad : t.scope pad.id = ⟨[], some pad.outer⟩
  scope : ∀ id, pad.RelatesScope (s.scope id) (t.scope (pad.past id))
  older : ∀ id < pad.id, (t.scope id).parent = (s.scope id).parent

/-- Machines with such stores, on which the same was printed. -/
structure Relates (pad : Pad) (m n : Machine) : Prop where
  store : pad.RelatesStore m.store n.store
  nextIdentity_eq : m.nextIdentity = n.nextIdentity
  sink_eq : m.sink = n.sink

variable {pad : Pad} {a b : ScopeId} {s t : Store} {m n : Machine} {name : String} {v w : Value}
  {made later : Nat}

/-! Twins. -/

theorem past_of_lt (older : a < pad.id) : pad.past a = a := if_pos older

theorem past_of_le (younger : pad.id ≤ a) : pad.past a = a + 1 := if_neg (Nat.not_lt.mpr younger)

theorem past_ne_id (pad : Pad) (a : ScopeId) : pad.past a ≠ pad.id := by
  grind [past]

theorem past_inj : pad.past a = pad.past b ↔ a = b := by
  grind [past]

/-- Every scope but the additional one is a twin. -/
theorem eq_id_or_past (pad : Pad) (b : ScopeId) : b = pad.id ∨ ∃ a, b = pad.past a := by
  rcases Nat.lt_trichotomy b pad.id with older | rfl | younger
  · exact .inr ⟨b, (past_of_lt older).symm⟩
  · exact .inl rfl
  · obtain ⟨a, rfl⟩ := Nat.exists_eq_add_of_lt (Nat.lt_of_le_of_lt (Nat.zero_le _) younger)
    exact .inr ⟨_, (past_of_le (Nat.le_of_lt_succ younger)).symm⟩

theorem past_lt_iff (among : pad.id ≤ made) : pad.past a < made + 1 ↔ a < made := by
  grind [past]

theorem past_lt_past (h : a < b) : pad.past a < pad.past b := by
  grind [past]

/-- From the additional scope one looks outside at once. -/
theorem sees_pad (pad : Pad) : pad.Sees pad.outer pad.id := .inr ⟨rfl, rfl⟩

theorem RelatesValue.mono (h : pad.RelatesValue made v w) (grown : made ≤ later) :
    pad.RelatesValue later v w :=
  ⟨h.rescoped, h.within.mono grown⟩

/-- A value without an identity is the same on all machines. -/
theorem relatesValue_plain (plain : v.identity? = none) : pad.RelatesValue made v v :=
  ⟨(Value.rescope_of_plain plain).symm, Value.within_of_plain plain⟩

theorem rescopeEntries_of_alike {entries others : Entries}
    (members : entries.Alike (pad.RelatesValue made) others) :
    others = Value.rescopeEntries pad.past entries ∧ ∀ entry ∈ entries, entry.2.Within made := by
  induction members with
  | nil => exact ⟨rfl, nofun⟩
  | cons value _ ih =>
    obtain ⟨rfl, within⟩ := value
    obtain ⟨rfl, inside⟩ := ih
    exact ⟨rfl, List.forall_mem_cons.mpr ⟨within, inside⟩⟩

theorem relatesValue_object {id : Identity} {entries others : Entries}
    (members : entries.Alike (pad.RelatesValue made) others) :
    pad.RelatesValue made (.object id entries) (.object id others) := by
  obtain ⟨rescoped, inside⟩ := rescopeEntries_of_alike members
  exact ⟨congrArg _ rescoped, Value.within_object.mpr inside⟩

/-! Looking up names. -/

theorem RelatesScope.find?_eq {s t : Scope} (h : pad.RelatesScope s t) (name : String) :
    t.find? name = (s.find? name).map (Binding.rescope pad.past) := by
  unfold Scope.find?
  rw [h.bindings_eq]
  induction s.bindings with
  | nil => rfl
  | cons entry rest ih =>
    rw [List.map_cons, List.lookup_cons, List.lookup_cons]
    cases name == entry.1 with
    | true => rfl
    | false => exact ih

theorem RelatesScope.binds_eq {s t : Scope} (h : pad.RelatesScope s t) (name : String) :
    t.binds name = s.binds name := by
  rw [Scope.binds, h.find?_eq, Option.isSome_map, Scope.binds]

/-- Parents come before their children on the second machine too. -/
theorem RelatesStore.rooted (h : pad.RelatesStore s t) : t.Rooted := by
  intro b q outward
  rcases pad.eq_id_or_past b with rfl | ⟨a, rfl⟩
  · rw [h.scope_pad] at outward
    cases outward
    exact pad.older
  · obtain ⟨-, right⟩ | ⟨p, _, left, right, sees⟩ := optionRel_iff.mp (h.scope a).parent
    · cases outward.symm.trans right
    · obtain rfl := Option.some.inj (outward.symm.trans right)
      have older : p < a := h.closed.rooted a p left
      rcases sees with rfl | ⟨rfl, rfl⟩
      · exact past_lt_past older
      · rcases Nat.lt_or_ge a pad.id with before | after
        · rw [past_of_lt before, h.older a before, left] at outward
          exact absurd (Option.some.inj outward) (Nat.ne_of_lt pad.older)
        · rw [past_of_le after]
          exact Nat.lt_succ_of_le after

/-- A walk that meets the additional scope goes on from there and comes to the same end. -/
theorem RelatesStore.resolveWithin_eq (h : pad.RelatesStore s t) (name : String)
    {count other : Nat} (sees : pad.Sees a b) (enough : a < count) (others : b < other) :
    t.resolveWithin name other b = (s.resolveWithin name count a).map pad.past := by
  induction other generalizing count a b with
  | zero => cases others
  | succ other ih =>
    rcases sees with rfl | ⟨rfl, rfl⟩
    · obtain ⟨count, rfl⟩ := Nat.exists_eq_succ_of_ne_zero (Nat.ne_zero_of_lt enough)
      simp only [Store.resolveWithin, (h.scope a).binds_eq name]
      cases (s.scope a).binds name with
      | true => rfl
      | false =>
        obtain ⟨left, right⟩ | ⟨p, q, left, right, further⟩ :=
          optionRel_iff.mp (h.scope a).parent
        · simp [left, right]
        · have outward : p < count :=
            Nat.lt_of_lt_of_le (h.closed.rooted a p left) (Nat.le_of_lt_succ enough)
          have outward' : q < other :=
            Nat.lt_of_lt_of_le (h.rooted _ q right) (Nat.le_of_lt_succ others)
          simpa [left, right] using ih further outward outward'
    · have unbound : Scope.binds ⟨[], some pad.outer⟩ name = false := rfl
      have same : pad.Sees pad.outer pad.outer := .inl (past_of_lt pad.older).symm
      have outward : pad.outer < other := Nat.lt_of_lt_of_le pad.older (Nat.le_of_lt_succ others)
      simp only [Store.resolveWithin, h.scope_pad, unbound]
      exact ih same enough outward

theorem RelatesStore.resolve?_eq (h : pad.RelatesStore s t) (sees : pad.Sees a b) (name : String) :
    t.resolve? b name = (s.resolve? a name).map pad.past :=
  h.resolveWithin_eq name sees (Nat.lt_succ_self a) (Nat.lt_succ_self b)

theorem RelatesStore.lookup?_eq (h : pad.RelatesStore s t) (sees : pad.Sees a b) (name : String) :
    t.lookup? b name = (s.lookup? a name).map (Binding.rescope pad.past) := by
  unfold Store.lookup?
  rw [h.resolve?_eq sees name]
  cases s.resolve? a name with
  | none => rfl
  | some owner => exact (h.scope owner).find?_eq name

theorem RelatesStore.assignFault?_eq (h : pad.RelatesStore s t) (sees : pad.Sees a b)
    (name : String) : t.assignFault? b name = s.assignFault? a name := by
  unfold Store.assignFault?
  rw [h.lookup?_eq sees name]
  cases s.lookup? a name <;> rfl

theorem RelatesStore.declareFault?_eq (h : pad.RelatesStore s t) (a : ScopeId) (name : String) :
    t.declareFault? (pad.past a) name = s.declareFault? a name := by
  rw [Store.declareFault?, (h.scope a).binds_eq name, Store.declareFault?]

/-! Changes of the stores. -/

/-- A change of bindings in twins. -/
theorem RelatesStore.modify (h : pad.RelatesStore s t) (id : ScopeId) {change other : Scope → Scope}
    (closed : (s.modify id change).Closed)
    (kept : ∀ scope, (change scope).parent = scope.parent)
    (others_kept : ∀ scope, (other scope).parent = scope.parent)
    (same : pad.RelatesScope (change (s.scope id)) (other (t.scope (pad.past id)))) :
    pad.RelatesStore (s.modify id change) (t.modify (pad.past id) other) where
  closed := closed
  made := by
    rw [Store.size_modify]
    exact h.made
  size_eq := by rw [Store.size_modify, Store.size_modify, h.size_eq]
  scope_pad := by rw [Store.scope_modify_of_ne _ (pad.past_ne_id id).symm, h.scope_pad]
  scope here := by
    rcases Nat.lt_or_ge id s.scopes.size with made | unmade
    · have made' : pad.past id < t.scopes.size := h.size_eq ▸ (past_lt_iff h.made).mpr made
      rw [Store.scope_modify _ _ _ _ made, Store.scope_modify _ _ _ _ made']
      by_cases changed : here = id
      · rw [if_pos changed, if_pos (past_inj.mpr changed)]
        exact same
      · rw [if_neg changed, if_neg (mt past_inj.mp changed)]
        exact h.scope here
    · have unmade' : t.scopes.size ≤ pad.past id :=
        h.size_eq ▸ Nat.not_lt.mp (mt (past_lt_iff h.made).mp (Nat.not_lt.mpr unmade))
      rw [Store.scope_modify_of_le _ _ _ _ unmade, Store.scope_modify_of_le _ _ _ _ unmade']
      exact h.scope here
  older here before := by
    rw [Store.parent_modify t _ here others_kept, Store.parent_modify s id here kept,
      h.older here before]

theorem RelatesStore.bind (h : pad.RelatesStore s t) (a : ScopeId) (name : String)
    (value : pad.RelatesValue s.scopes.size v w) (constant : Bool) :
    pad.RelatesStore (s.bind a name v constant) (t.bind (pad.past a) name w constant) := by
  obtain ⟨rfl, within⟩ := value
  refine h.modify a (h.closed.bind within constant) (fun _ => rfl) (fun _ => rfl)
    ⟨?_, (h.scope a).parent⟩
  simp only [Scope.add, (h.scope a).bindings_eq, List.map_append]
  rfl

theorem RelatesStore.set (h : pad.RelatesStore s t) (sees : pad.Sees a b) (name : String)
    (value : pad.RelatesValue s.scopes.size v w) :
    pad.RelatesStore (s.set a name v) (t.set b name w) := by
  obtain ⟨rfl, within⟩ := value
  have closed : (s.set a name v).Closed := h.closed.set within
  unfold Store.set at closed ⊢
  rw [h.resolve?_eq sees name]
  cases resolved : s.resolve? a name with
  | none => exact h
  | some owner =>
    rw [resolved] at closed
    refine h.modify owner closed (fun _ => rfl) (fun _ => rfl) ⟨?_, (h.scope owner).parent⟩
    simp only [Scope.update, (h.scope owner).bindings_eq, List.map_map]
    refine List.map_congr_left fun entry _ => ?_
    dsimp only [Function.comp]
    split <;> rfl

/-- Twins are made inside scopes from which the same is seen. -/
theorem RelatesStore.create (h : pad.RelatesStore s t) (sees : pad.Sees a b)
    (made : a < s.scopes.size) :
    pad.RelatesStore (s.create (some a)).2 (t.create (some b)).2 := by
  have twin : pad.past s.scopes.size = t.scopes.size := by rw [past_of_le h.made, h.size_eq]
  constructor
  · exact h.closed.create (by rintro _ ⟨⟩; exact made)
  · rw [Store.size_create]
    exact Nat.le_succ_of_le h.made
  · rw [Store.size_create, Store.size_create, h.size_eq]
  · rw [Store.scope_create, ← twin, if_neg (pad.past_ne_id _).symm, h.scope_pad]
  · intro id
    rw [Store.scope_create, Store.scope_create, ← twin]
    by_cases new : id = s.scopes.size
    · rw [if_pos new, if_pos (congrArg pad.past new)]
      exact ⟨rfl, .some sees⟩
    · rw [if_neg new, if_neg (mt past_inj.mp new)]
      exact h.scope id
  · intro id older
    have before : id < s.scopes.size := Nat.lt_of_lt_of_le older h.made
    have before' : id ≠ t.scopes.size := h.size_eq ▸ Nat.ne_of_lt (Nat.lt_succ_of_lt before)
    rw [Store.scope_create, Store.scope_create, if_neg before', if_neg (Nat.ne_of_lt before),
      h.older id older]

theorem Relates.newIdentity (h : pad.Relates m n) :
    m.newIdentity.1 = n.newIdentity.1 ∧ pad.Relates m.newIdentity.2 n.newIdentity.2 :=
  ⟨h.nextIdentity_eq, h.store, congrArg (· + 1) h.nextIdentity_eq, h.sink_eq⟩

theorem Relates.withStore (h : pad.Relates m n) (stores : pad.RelatesStore s t) :
    pad.Relates { m with store := s } { n with store := t } :=
  ⟨stores, h.nextIdentity_eq, h.sink_eq⟩

/-- The additional scope is made. -/
theorem relatesStore_create (closed : s.Closed) {outer : ScopeId} (made : outer < s.scopes.size) :
    (Pad.mk s.scopes.size outer made).RelatesStore s (s.create (some outer)).2 := by
  let pad := Pad.mk s.scopes.size outer made
  constructor
  · exact closed
  · exact Nat.le_refl _
  · exact Store.size_create s _
  · rw [Store.scope_create, if_pos rfl]
  · intro id
    have same : (s.create (some outer)).2.scope (pad.past id) = s.scope id := by
      rw [Store.scope_create, if_neg (pad.past_ne_id id)]
      rcases Nat.lt_or_ge id s.scopes.size with older | unmade
      · rw [past_of_lt older]
      · rw [past_of_le unmade, s.scope_of_le _ (Nat.le_succ_of_le unmade), s.scope_of_le _ unmade]
    rw [same]
    refine ⟨?_, ?_⟩
    · have kept : ∀ entry ∈ (s.scope id).bindings,
          (entry.1, entry.2.rescope pad.past) = entry := by
        intro entry member
        have before : ∀ inner < pad.id, pad.past inner = inner := fun _ => past_of_lt
        have value_eq := Value.rescope_eq_self before (closed.bound id entry member)
        simp only [Binding.rescope, value_eq]
      rw [List.map_congr_left kept, List.map_id']
    · cases outward : (s.scope id).parent with
      | none => exact .none
      | some parent =>
        have older : parent < pad.id := closed.parent_lt outward
        exact .some (.inl (past_of_lt older).symm)
  · intro id older
    rw [Store.scope_create, if_neg (Nat.ne_of_lt older)]

theorem relates_newScope (closed : m.store.Closed) {outer : ScopeId}
    (made : outer < m.store.scopes.size) :
    (Pad.mk m.store.scopes.size outer made).Relates m (m.newScope (some outer)).2 :=
  ⟨relatesStore_create closed made, rfl, rfl⟩

end Pad

end Scriptlet
