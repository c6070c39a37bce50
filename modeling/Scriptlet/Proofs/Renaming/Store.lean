import Scriptlet.Proofs.Renaming.Value
import Scriptlet.Proofs.Scope.Growth

/-!
# Stores up to renaming

Scopes that a renaming pairs off bind the same names to related values and have related parents, so
that everything that can be reached from them is paired off too (`RelatesStore.reaches`). What else
the stores hold is left open. A name is looked up alike from related scopes, and changes of related
scopes keep stores related.
-/
namespace Scriptlet

open Store (parent_modify size_modify)

/-- A scope that a value leads to. -/
inductive Value.LeadsTo (scope : ScopeId) : Value → Prop
  | closure {id closure} (captured : closure.scope = scope) : LeadsTo scope (.function id closure)
  | entry {id key value entries} (entry : (key, value) ∈ entries) (inside : LeadsTo scope value) :
    LeadsTo scope (.object id entries)

/-- The scopes that can be reached from a scope: along parents, and through the values bound. -/
inductive Store.Reaches (store : Store) (origin : ScopeId) : ScopeId → Prop
  | origin : Reaches store origin origin
  | parent {id parent} (reached : Reaches store origin id)
      (outward : (store.scope id).parent = some parent) : Reaches store origin parent
  | binding {id name binding inner} (reached : Reaches store origin id)
      (bound : (store.scope id).find? name = some binding)
      (inside : binding.value.LeadsTo inner) : Reaches store origin inner

namespace Renaming

structure RelatesBinding (ρ : Renaming) (b c : Binding) : Prop where
  constant_eq : b.constant = c.constant
  value : ρ.RelatesValue b.value c.value

/-- Two scopes bind the same names, in whatever order they were declared. -/
structure RelatesScope (ρ : Renaming) (s t : Scope) : Prop where
  parent : Option.Rel ρ.scopes.Pairs s.parent t.parent
  bindings : ∀ name, Option.Rel ρ.RelatesBinding (s.find? name) (t.find? name)

/-- Scopes that are paired off are related. They were made, each after its parent: the store makes
scopes in no other order. -/
structure RelatesStore (ρ : Renaming) (s t : Store) : Prop where
  made : ∀ {a b}, ρ.scopes.Pairs a b → a < s.scopes.size ∧ b < t.scopes.size
  scope : ∀ {a b}, ρ.scopes.Pairs a b → ρ.RelatesScope (s.scope a) (t.scope b)
  older_left : ∀ {a b parent}, ρ.scopes.Pairs a b → (s.scope a).parent = some parent → parent < a
  older_right : ∀ {a b parent}, ρ.scopes.Pairs a b → (t.scope b).parent = some parent → parent < b

variable {ρ σ : Renaming} {s t : Store} {a b : ScopeId} {v w : Value}

theorem RelatesBinding.mono (extended : ρ ≤ σ) {b c : Binding} (h : ρ.RelatesBinding b c) :
    σ.RelatesBinding b c :=
  ⟨h.constant_eq, h.value.mono extended⟩

theorem RelatesScope.mono (extended : ρ ≤ σ) {s t : Scope} (h : ρ.RelatesScope s t) :
    σ.RelatesScope s t where
  parent := optionRel_mono h.parent extended.1
  bindings name := optionRel_mono (h.bindings name) fun _ _ => RelatesBinding.mono extended

theorem RelatesBinding.symm {b c : Binding} (h : ρ.RelatesBinding b c) :
    ρ.symm.RelatesBinding c b :=
  ⟨h.constant_eq.symm, h.value.symm⟩

theorem RelatesScope.symm {s t : Scope} (h : ρ.RelatesScope s t) : ρ.symm.RelatesScope t s where
  parent := optionRel_symm h.parent fun _ _ pair => pair
  bindings name := optionRel_symm (h.bindings name) fun _ _ => RelatesBinding.symm

theorem RelatesStore.symm (h : ρ.RelatesStore s t) : ρ.symm.RelatesStore t s where
  made pair := (h.made pair).symm
  scope pair := (h.scope pair).symm
  older_left := h.older_right
  older_right := h.older_left

/-- Both scopes bind a name, or neither does. -/
theorem RelatesScope.binds_eq {s t : Scope} (h : ρ.RelatesScope s t) (name : String) :
    s.binds name = t.binds name := by
  unfold Scope.binds
  obtain ⟨left, right⟩ | ⟨b, c, left, right, -⟩ := optionRel_iff.mp (h.bindings name)
  · rw [left, right]
  · rw [left, right]
    rfl

/-- The walk outward meets related scopes all the way. Parents are older, so that it ends within
the number of scopes that each store allows. -/
theorem RelatesStore.resolveWithin (h : ρ.RelatesStore s t) (name : String) {count other : Nat}
    (pair : ρ.scopes.Pairs a b) (enough : a < count) (others : b < other) :
    Option.Rel ρ.scopes.Pairs (s.resolveWithin name count a) (t.resolveWithin name other b) := by
  induction count generalizing other a b with
  | zero => cases enough
  | succ count ih =>
    cases other with
    | zero => cases others
    | succ other =>
      have related := h.scope pair
      simp only [Store.resolveWithin, related.binds_eq name]
      split
      · exact .some pair
      · refine optionRel_bind related.parent fun p q left right outward => ih outward ?_ ?_
        · exact Nat.lt_of_lt_of_le (h.older_left pair left) (Nat.le_of_lt_succ enough)
        · exact Nat.lt_of_lt_of_le (h.older_right pair right) (Nat.le_of_lt_succ others)

theorem RelatesStore.resolve? (h : ρ.RelatesStore s t) (pair : ρ.scopes.Pairs a b)
    (name : String) : Option.Rel ρ.scopes.Pairs (s.resolve? a name) (t.resolve? b name) :=
  h.resolveWithin name pair (Nat.lt_succ_self a) (Nat.lt_succ_self b)

theorem RelatesStore.lookup? (h : ρ.RelatesStore s t) (pair : ρ.scopes.Pairs a b)
    (name : String) : Option.Rel ρ.RelatesBinding (s.lookup? a name) (t.lookup? b name) :=
  optionRel_bind (h.resolve? pair name) fun _ _ _ _ owners => (h.scope owners).bindings name

theorem RelatesStore.declareFault?_eq (h : ρ.RelatesStore s t) (pair : ρ.scopes.Pairs a b)
    (name : String) : s.declareFault? a name = t.declareFault? b name := by
  rw [Store.declareFault?, Store.declareFault?, (h.scope pair).binds_eq name]

theorem RelatesStore.assignFault?_eq (h : ρ.RelatesStore s t) (pair : ρ.scopes.Pairs a b)
    (name : String) : s.assignFault? a name = t.assignFault? b name := by
  unfold Store.assignFault?
  obtain ⟨left, right⟩ | ⟨x, y, left, right, same⟩ := optionRel_iff.mp (h.lookup? pair name)
  · rw [left, right]
  · simp only [left, right, same.constant_eq]

/-- A change of two related scopes by which they stay related, and keep their parents. -/
theorem RelatesStore.modify (h : ρ.RelatesStore s t) (pair : ρ.scopes.Pairs a b)
    {change other : Scope → Scope} (kept : ∀ scope, (change scope).parent = scope.parent)
    (others_kept : ∀ scope, (other scope).parent = scope.parent)
    (related : ρ.RelatesScope (change (s.scope a)) (other (t.scope b))) :
    ρ.RelatesStore (s.modify a change) (t.modify b other) := by
  obtain ⟨left_made, right_made⟩ := h.made pair
  constructor
  · intro c d among
    rw [size_modify, size_modify]
    exact h.made among
  · intro c d among
    rw [Store.scope_modify _ _ _ _ left_made, Store.scope_modify _ _ _ _ right_made]
    have both : c = a ↔ d = b := ρ.scopes.eq_iff_eq among pair
    by_cases here : c = a
    · rw [if_pos here, if_pos (both.mp here)]
      exact related
    · rw [if_neg here, if_neg (mt both.mpr here)]
      exact h.scope among
  · intro c d parent among outward
    exact h.older_left among (parent_modify s a c kept ▸ outward)
  · intro c d parent among outward
    exact h.older_right among (parent_modify t b d others_kept ▸ outward)

/-- Declaring a name in related scopes. -/
theorem RelatesStore.bind (h : ρ.RelatesStore s t) (pair : ρ.scopes.Pairs a b) (name : String)
    (value : ρ.RelatesValue v w) (constant : Bool) :
    ρ.RelatesStore (s.bind a name v constant) (t.bind b name w constant) := by
  have related := h.scope pair
  refine h.modify pair (fun _ => rfl) (fun _ => rfl) ⟨related.parent, fun other => ?_⟩
  rw [Scope.find?_add, Scope.find?_add]
  obtain ⟨left, right⟩ | ⟨x, y, left, right, same⟩ := optionRel_iff.mp (related.bindings other)
  · rw [left, right, Option.none_or, Option.none_or]
    split
    · exact .some ⟨rfl, value⟩
    · exact .none
  · rw [left, right, Option.some_or, Option.some_or]
    exact .some same

/-- Assigning a name as seen from related scopes. -/
theorem RelatesStore.set (h : ρ.RelatesStore s t) (pair : ρ.scopes.Pairs a b) (name : String)
    (value : ρ.RelatesValue v w) : ρ.RelatesStore (s.set a name v) (t.set b name w) := by
  unfold Store.set
  obtain ⟨left, right⟩ | ⟨owner, other, left, right, owners⟩ :=
    optionRel_iff.mp (h.resolve? pair name)
  · rw [left, right]
    exact h
  · have related := h.scope owners
    rw [left, right]
    refine h.modify owners (fun _ => rfl) (fun _ => rfl) ⟨related.parent, fun bound => ?_⟩
    rw [Scope.find?_update, Scope.find?_update]
    split
    · exact optionRel_map (related.bindings name) fun _ _ same => ⟨same.constant_eq, value⟩
    · exact related.bindings bound

/-- The renaming with one more pair of scopes. -/
def withScope (ρ : Renaming) (a b : ScopeId)
    (free : ∀ c d, ρ.scopes.Pairs c d → c ≠ a ∧ d ≠ b) : Renaming :=
  ⟨ρ.scopes.insert a b free, ρ.identities⟩

theorem le_withScope {free : ∀ c d, ρ.scopes.Pairs c d → c ≠ a ∧ d ≠ b} :
    ρ ≤ ρ.withScope a b free :=
  ⟨fun _ _ => .inl, fun _ _ => id⟩

/-- The numbers of the next scopes have no partners yet. -/
theorem RelatesStore.free (h : ρ.RelatesStore s t) (c d : ScopeId) (pair : ρ.scopes.Pairs c d) :
    c ≠ s.scopes.size ∧ d ≠ t.scopes.size :=
  ⟨Nat.ne_of_lt (h.made pair).1, Nat.ne_of_lt (h.made pair).2⟩

/-- A new scope is younger than its parent. -/
theorem older_create {parent : Option ScopeId} (made : ∀ p, parent = some p → p < s.scopes.size)
    {p : ScopeId} (outward : ((s.create parent).2.scope s.scopes.size).parent = some p) :
    p < s.scopes.size := by
  rw [Store.scope_create, if_pos rfl] at outward
  exact made p outward

/-- Making a scope on both sides, inside related scopes or outside of all. -/
theorem RelatesStore.create (h : ρ.RelatesStore s t) {outer other : Option ScopeId}
    (parents : Option.Rel ρ.scopes.Pairs outer other) :
    (ρ.withScope s.scopes.size t.scopes.size h.free).RelatesStore (s.create outer).2
      (t.create other).2 := by
  have left_size : (s.create outer).2.scopes.size = s.scopes.size + 1 := Array.size_push _
  have right_size : (t.create other).2.scopes.size = t.scopes.size + 1 := Array.size_push _
  have parents_made : (∀ p, outer = some p → p < s.scopes.size) ∧
      ∀ q, other = some q → q < t.scopes.size := by
    cases parents with
    | none => exact ⟨nofun, nofun⟩
    | some pair =>
      obtain ⟨left, right⟩ := h.made pair
      exact ⟨fun _ same => Option.some.inj same ▸ left, fun _ same => Option.some.inj same ▸ right⟩
  have left_scope : ∀ {c d}, ρ.scopes.Pairs c d → (s.create outer).2.scope c = s.scope c := by
    intro c d pair
    rw [Store.scope_create, if_neg (h.free c d pair).1]
  have right_scope : ∀ {c d}, ρ.scopes.Pairs c d → (t.create other).2.scope d = t.scope d := by
    intro c d pair
    rw [Store.scope_create, if_neg (h.free c d pair).2]
  constructor
  · rintro c d (pair | ⟨rfl, rfl⟩)
    · obtain ⟨left, right⟩ := h.made pair
      omega
    · omega
  · rintro c d (pair | ⟨rfl, rfl⟩)
    · rw [left_scope pair, right_scope pair]
      exact (h.scope pair).mono le_withScope
    · rw [Store.scope_create, if_pos rfl, Store.scope_create, if_pos rfl]
      exact ⟨optionRel_mono parents fun _ _ => .inl, fun _ => .none⟩
  · rintro c d p (pair | ⟨rfl, rfl⟩) outward
    · exact h.older_left pair (left_scope pair ▸ outward)
    · exact older_create parents_made.1 outward
  · rintro c d p (pair | ⟨rfl, rfl⟩) outward
    · exact h.older_right pair (right_scope pair ▸ outward)
    · exact older_create parents_made.2 outward

/-- Related values lead to partners. -/
theorem RelatesValue.leadsTo {c : ScopeId} (inside : v.LeadsTo c) :
    ∀ {w : Value}, ρ.RelatesValue v w → ∃ d, w.LeadsTo d ∧ ρ.scopes.Pairs c d := by
  induction inside with
  | closure captured =>
    intro w related
    cases related with
    | function same scope => exact ⟨_, .closure rfl, captured ▸ scope⟩
  | entry entry inside ih =>
    intro w related
    cases related with
    | object same members =>
      obtain ⟨_, found, value⟩ := members.mem entry
      obtain ⟨d, leads, pair⟩ := ih value
      exact ⟨d, .entry found leads, pair⟩

/-- Whatever can be reached from a scope has a partner that can be reached from the partner of that
scope. -/
theorem RelatesStore.reaches (h : ρ.RelatesStore s t) (pair : ρ.scopes.Pairs a b) {c : ScopeId}
    (reached : s.Reaches a c) : ∃ d, t.Reaches b d ∧ ρ.scopes.Pairs c d := by
  induction reached with
  | origin => exact ⟨b, .origin, pair⟩
  | @parent id outer _ outward ih =>
    obtain ⟨d, reached, among⟩ := ih
    obtain ⟨absent, -⟩ | ⟨p, q, left, right, outer_pair⟩ :=
      optionRel_iff.mp (h.scope among).parent
    · rw [outward] at absent
      cases absent
    · obtain rfl : outer = p := Option.some.inj (outward.symm.trans left)
      exact ⟨q, reached.parent right, outer_pair⟩
  | @binding id name binding inner _ bound inside ih =>
    obtain ⟨d, reached, among⟩ := ih
    obtain ⟨absent, -⟩ | ⟨x, y, left, right, same⟩ :=
      optionRel_iff.mp ((h.scope among).bindings name)
    · rw [bound] at absent
      cases absent
    · obtain rfl : binding = x := Option.some.inj (bound.symm.trans left)
      obtain ⟨e, leads, inner_pair⟩ := same.value.leadsTo inside
      exact ⟨e, reached.binding right leads, inner_pair⟩

/-- A renaming pairs off what can be reached from two scopes. -/
def PairsReachable (ρ : Renaming) (s t : Store) (a b : ScopeId) : Prop :=
  (∀ c, s.Reaches a c → ∃ d, t.Reaches b d ∧ ρ.scopes.Pairs c d) ∧
    ∀ d, t.Reaches b d → ∃ c, s.Reaches a c ∧ ρ.scopes.Pairs c d

theorem RelatesStore.pairsReachable (h : ρ.RelatesStore s t) (pair : ρ.scopes.Pairs a b) :
    ρ.PairsReachable s t a b :=
  ⟨fun _ => h.reaches pair, fun _ => h.symm.reaches pair⟩

end Renaming

end Scriptlet
