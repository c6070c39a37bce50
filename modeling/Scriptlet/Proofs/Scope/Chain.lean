import Mathlib.Tactic.ByContra
import Scriptlet.Proofs.Scope.Growth

/-!
# The way outward

From a scope the way leads to its parent, from there to the next one, and ends at a scope without
parent. Where every scope was made after its parent (`Rooted`), each scope has such a way
(`Rooted.outward`), and a name means what the first scope on it binds it to (`Rooted.lookup?_eq`). So
what is written through one scope can be told for all others: an assignment is read wherever the
name is resolved to the same scope (`get_assign`), a declaration wherever the scope is on the way and
no scope before it binds the name (`Rooted.get_declare`).
-/
namespace Scriptlet

namespace Store

variable {store later : Store}

/-- The scopes on the way from a scope outward, that scope first and one without parent last. -/
inductive Outward (store : Store) : ScopeId → List ScopeId → Prop
  | root {id} (outermost : (store.scope id).parent = none) : Outward store id [id]
  | child {id parent chain} (outward : (store.scope id).parent = some parent)
      (further : Outward store parent chain) : Outward store id (id :: chain)

/-- Every scope was made after its parent. -/
def Rooted (store : Store) : Prop :=
  ∀ id parent, (store.scope id).parent = some parent → parent < id

/-- From scope `id`, scope `e` is on the way outward, and none before it binds `x`. -/
def Exposes (store : Store) (id e : ScopeId) (x : String) : Prop :=
  ∃ before after, store.Outward id (before ++ e :: after) ∧
    ∀ inner ∈ before, (store.scope inner).binds x = false

variable {id e : ScopeId} {chain other : List ScopeId} {x : String}

theorem Outward.unique (way : store.Outward id chain) (same : store.Outward id other) :
    other = chain := by
  induction way generalizing other with
  | root outermost =>
    cases same with
    | root _ => rfl
    | child outward _ => cases outermost.symm.trans outward
  | child outward _ ih =>
    cases same with
    | root outermost => cases outermost.symm.trans outward
    | child outward' further =>
      cases outward.symm.trans outward'
      rw [ih further]

theorem Rooted.outward (rooted : store.Rooted) (id : ScopeId) :
    ∃ chain, store.Outward id chain ∧ chain.length ≤ id + 1 := by
  induction id using Nat.strongRecOn with
  | ind id ih =>
  cases outward : (store.scope id).parent with
  | none => exact ⟨[id], .root outward, by simp⟩
  | some parent =>
    have made := rooted id parent outward
    obtain ⟨chain, further, bound⟩ := ih parent made
    exact ⟨id :: chain, .child outward further, Nat.succ_le_succ (Nat.le_trans bound made)⟩

/-- A walk finds the first scope on the way that binds the name, as soon as it may be as long as the
way: a longer one finds no other. -/
theorem Outward.resolveWithin_eq (way : store.Outward id chain) (x : String) {count : Nat}
    (enough : chain.length ≤ count) :
    store.resolveWithin x count id = chain.find? fun inner => (store.scope inner).binds x := by
  induction way generalizing count with
  | root outermost =>
    obtain ⟨count, rfl⟩ := Nat.exists_eq_add_of_le' enough
    rw [List.length_singleton, resolveWithin, List.find?_singleton, outermost]
    rfl
  | @child id parent chain outward _ ih =>
    obtain ⟨count, rfl⟩ := Nat.exists_eq_add_of_le' (Nat.le_of_add_left_le enough)
    rw [List.length_cons] at enough
    rw [resolveWithin, List.find?_cons, outward, Option.bind_some, ih (by omega)]
    cases (store.scope id).binds x <;> rfl

theorem Rooted.resolve?_eq (rooted : store.Rooted) (way : store.Outward id chain) (x : String) :
    store.resolve? id x = chain.find? fun inner => (store.scope inner).binds x := by
  obtain ⟨same, way', bound⟩ := rooted.outward id
  obtain rfl := way.unique way'
  exact way.resolveWithin_eq x bound

/-- A name means what the first scope on the way binds it to. -/
theorem Rooted.lookup?_eq (rooted : store.Rooted) (way : store.Outward id chain) (x : String) :
    store.lookup? id x = chain.findSome? fun inner => (store.scope inner).find? x := by
  have first : ∀ chain : List ScopeId,
      ((chain.find? fun inner => (store.scope inner).binds x).bind fun owner =>
        (store.scope owner).find? x) = chain.findSome? fun inner => (store.scope inner).find? x := by
    intro chain
    induction chain with
    | nil => rfl
    | cons inner rest ih =>
      rw [List.find?_cons, List.findSome?_cons]
      cases found : (store.scope inner).find? x with
      | none => simpa [Scope.binds, found] using ih
      | some binding => simp [Scope.binds, found]
  rw [← first, ← rooted.resolve?_eq way x]
  rfl

/-! What a change of bindings leaves as it is. -/

theorem parent_bind (name : String) (value : Value) (constant : Bool) (other : ScopeId) :
    ((store.bind id name value constant).scope other).parent = (store.scope other).parent :=
  parent_modify store id other fun _ => rfl

theorem parent_set (name : String) (value : Value) (other : ScopeId) :
    ((store.set id name value).scope other).parent = (store.scope other).parent := by
  unfold set
  split
  · rfl
  · exact parent_modify store _ other fun _ => rfl

theorem Outward.of_parents (way : store.Outward id chain)
    (same : ∀ other, (later.scope other).parent = (store.scope other).parent) :
    later.Outward id chain := by
  induction way with
  | root outermost => exact .root ((same _).trans outermost)
  | child outward _ ih => exact .child ((same _).trans outward) ih

theorem Rooted.of_parents (rooted : store.Rooted)
    (same : ∀ other, (later.scope other).parent = (store.scope other).parent) :
    later.Rooted :=
  fun id parent outward => rooted id parent ((same id).symm.trans outward)

theorem Rooted.create (rooted : store.Rooted) {parent : Option ScopeId}
    (made : ∀ outer ∈ parent, outer < store.scopes.size) : (store.create parent).2.Rooted := by
  intro id outer outward
  rw [scope_create] at outward
  split at outward
  · next new =>
    rw [new]
    exact made outer outward
  · exact rooted id outer outward

/-! What is read after a write. -/

/-- An assignment changes no scope's names, so that all names belong where they did. -/
theorem resolve?_set (name : String) (value : Value) (other : ScopeId) (y : String) :
    (store.set id name value).resolve? other y = store.resolve? other y := by
  have within : ∀ count other, (store.set id name value).resolveWithin y count other =
      store.resolveWithin y count other := by
    intro count
    induction count with
    | zero => exact fun _ => rfl
    | succ count ih =>
      intro other
      simp only [resolveWithin, binds_set, parent_set, funext ih]
  exact within _ _

theorem declareFault?_eq_none : store.declareFault? id x = none ↔ (store.scope id).binds x = false := by
  unfold declareFault?
  cases (store.scope id).binds x <;> simp

theorem assign_eq_ok {name : String} {value : Value} :
    store.assign id name value = .ok later ↔
      store.assignFault? id name = none ∧ later = store.set id name value := by
  unfold assign
  cases store.assignFault? id name <;> simp [eq_comm]

theorem declare_eq_ok {name : String} {value : Value} {constant : Bool} :
    store.declare id name value constant = .ok later ↔
      store.declareFault? id name = none ∧ later = store.bind id name value constant := by
  unfold declare
  cases store.declareFault? id name <;> simp [eq_comm]

/-- Reading tells what is looked up, and nothing else. -/
theorem get_eq_of_lookup?_eq {other : ScopeId} {y : String}
    (same : later.lookup? other y = store.lookup? other y) :
    later.get other y = store.get other y := by
  rw [get, get, same]

/-- After an assignment its value is read under its name wherever the name belongs to the same
scope, and everything else is read as before. -/
theorem get_assign {value : Value} (done : store.assign e x value = .ok later) (id : ScopeId)
    (y : String) :
    (y = x ∧ store.resolve? id x = store.resolve? e x → later.get id y = .ok value) ∧
      (¬ (y = x ∧ store.resolve? id x = store.resolve? e x) → later.get id y = store.get id y) := by
  obtain ⟨allowed, rfl⟩ := assign_eq_ok.mp done
  obtain ⟨owner, binding, resolved, found, -⟩ := owner_of_assignFault?_eq_none allowed
  have made := lt_size_of_find? found
  have scope_eq : ∀ other, (store.set e x value).scope other =
      if other = owner then (store.scope owner).update x value else store.scope other := by
    intro other
    simp only [set, resolved]
    exact scope_modify _ _ _ _ made
  constructor
  · rintro ⟨rfl, same⟩
    have read : (store.set e y value).lookup? id y = some { binding with value } := by
      have kept : (store.set e y value).resolve? id y = some owner :=
        (resolve?_set y value id y).trans (same.trans resolved)
      rw [lookup?_of_resolve? kept, scope_eq, if_pos rfl, Scope.find?_update, if_pos rfl, found]
      rfl
    rw [get, read]
  · intro elsewhere
    apply get_eq_of_lookup?_eq
    have kept : (store.set e x value).resolve? id y = store.resolve? id y :=
      resolve?_set x value id y
    cases belongs : store.resolve? id y with
    | none =>
      rw [lookup?, lookup?, kept, belongs]
      rfl
    | some inner =>
      rw [lookup?_of_resolve? (kept.trans belongs), lookup?_of_resolve? belongs, scope_eq]
      split
      · next same =>
        rw [Scope.find?_update, if_neg, same]
        rintro rfl
        exact elsewhere ⟨rfl, belongs.trans (same ▸ resolved.symm)⟩
      · rfl

theorem find?_bind (made : e < store.scopes.size) (value : Value) (constant : Bool)
    (inner : ScopeId) (y : String) :
    ((store.bind e x value constant).scope inner).find? y =
      ((store.scope inner).find? y).or
        (if inner = e ∧ y = x then some ⟨value, constant⟩ else none) := by
  rw [bind, scope_modify _ _ _ _ made]
  split
  · next same =>
    subst same
    simp [Scope.find?_add]
  · next different => simp [different]

/-- What is added at one place of a list is found there, if nothing is found before it. -/
theorem findSome?_added {β : Type} {f : ScopeId → Option β} {b : β} {before : List ScopeId}
    (free : f e = none) (none_before : ∀ a ∈ before, f a = none) (after : List ScopeId) :
    (before ++ e :: after).findSome? (fun a => (f a).or (if a = e then some b else none)) =
      some b := by
  induction before with
  | nil => simp [free]
  | cons a rest ih =>
    rw [List.forall_mem_cons] at none_before
    rw [List.cons_append, List.findSome?_cons, none_before.1, Option.none_or]
    split
    · next found =>
      split at found <;> cases found
      rfl
    · exact ih none_before.2

/-- What is added behind something that is found is not found itself. -/
theorem findSome?_hidden {β : Type} {f : ScopeId → Option β} {b : β}
    (hidden : ∀ before after, chain = before ++ e :: after → ∃ a ∈ before, f a ≠ none) :
    chain.findSome? (fun a => (f a).or (if a = e then some b else none)) =
      chain.findSome? f := by
  induction chain with
  | nil => rfl
  | cons a rest ih =>
    rw [List.findSome?_cons, List.findSome?_cons]
    cases found : f a with
    | some value => rfl
    | none =>
      have different : a ≠ e := by
        rintro rfl
        obtain ⟨_, member, -⟩ := hidden [] rest rfl
        cases member
      rw [Option.none_or, if_neg different]
      apply ih
      rintro before after rfl
      obtain ⟨inner, member, some_⟩ := hidden (a :: before) after rfl
      rcases List.mem_cons.mp member with rfl | member
      · exact absurd found some_
      · exact ⟨inner, member, some_⟩

/-- After a declaration its value is read under its name wherever the scope is on the way and no
scope before it binds the name, and everything else is read as before. -/
theorem Rooted.get_declare (rooted : store.Rooted) (made : e < store.scopes.size) {value : Value}
    {constant : Bool} (done : store.declare e x value constant = .ok later) (id : ScopeId)
    (y : String) :
    (y = x ∧ store.Exposes id e x → later.get id y = .ok value) ∧
      (¬ (y = x ∧ store.Exposes id e x) → later.get id y = store.get id y) := by
  obtain ⟨free, rfl⟩ := declare_eq_ok.mp done
  have unbound : (store.scope e).find? x = none := by
    rw [declareFault?_eq_none, Scope.binds] at free
    simpa using free
  have rooted' : (store.bind e x value constant).Rooted := rooted.of_parents (parent_bind _ _ _)
  have kept : ∀ {chain}, store.Outward id chain →
      (store.bind e x value constant).lookup? id y = chain.findSome? fun inner =>
        ((store.scope inner).find? y).or
          (if inner = e ∧ y = x then some ⟨value, constant⟩ else none) := by
    intro chain way
    rw [rooted'.lookup?_eq (way.of_parents (parent_bind _ _ _)),
      funext fun inner => find?_bind made value constant inner y]
  constructor
  · rintro ⟨rfl, before, after, way, none_before⟩
    have read : (store.bind e y value constant).lookup? id y = some ⟨value, constant⟩ := by
      simp only [kept way, and_true]
      refine findSome?_added unbound (fun inner member => ?_) after
      simpa [Scope.binds] using none_before inner member
    rw [get, read]
  · intro elsewhere
    apply get_eq_of_lookup?_eq
    obtain ⟨chain, way, -⟩ := rooted.outward id
    rw [kept way, rooted.lookup?_eq way]
    by_cases named : y = x
    · subst named
      simp only [and_true]
      refine findSome?_hidden fun before after split => ?_
      by_contra nothing
      refine elsewhere ⟨rfl, before, after, split ▸ way, fun inner member => ?_⟩
      by_contra binds
      exact nothing ⟨inner, member, by simpa [Scope.binds, Option.isSome_iff_ne_none] using binds⟩
    · simp only [named, and_false, if_false, Option.or_none]

end Store

end Scriptlet
