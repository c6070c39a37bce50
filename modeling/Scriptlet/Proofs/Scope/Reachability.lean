import Scriptlet.Eval.Machine
import Scriptlet.Proofs.Renaming.Store

/-!
# What can be reached

From a scope one gets to its parent and to the values it binds, from an object to its entries, from a
function to the scope of its declaration. A change of the machine is confined to some roots when it
leaves alone what cannot be reached from them, and afterwards nothing can be reached from there but
what could be before and what is new (`Machine.Confined`).
-/
namespace Scriptlet

/-- A scope or a value. -/
inductive Referent where
  | scope (id : ScopeId)
  | value (v : Value)

namespace Store

/-- What a scope or a value leads to at once. -/
inductive Next (store : Store) : Referent → Referent → Prop
  | parent {id parent} (outward : (store.scope id).parent = some parent) :
      Next store (.scope id) (.scope parent)
  | binding {id name binding} (bound : (store.scope id).find? name = some binding) :
      Next store (.scope id) (.value binding.value)
  | entry {id entries key v} (member : (key, v) ∈ entries) :
      Next store (.value (.object id entries)) (.value v)
  | closure {id closure} : Next store (.value (.function id closure)) (.scope closure.scope)

/-- The scopes and values that can be reached from some roots. -/
inductive Reachable (store : Store) (roots : Referent → Prop) : Referent → Prop
  | root {r} (is_root : roots r) : Reachable store roots r
  | next {o r} (reached : Reachable store roots o) (step : store.Next o r) : Reachable store roots r

variable {store later : Store} {roots others : Referent → Prop} {o r : Referent}

/-- From roots that can be reached themselves one gets no further. -/
theorem Reachable.of_roots (reached : store.Reachable roots r)
    (among : ∀ o, roots o → store.Reachable others o) : store.Reachable others r := by
  induction reached with
  | root is_root => exact among _ is_root
  | next _ step ih => exact ih.next step

theorem Reachable.exists_root (reached : store.Reachable roots r) :
    ∃ o, roots o ∧ store.Reachable (· = o) r := by
  induction reached with
  | @root o is_root => exact ⟨o, is_root, .root rfl⟩
  | next _ step ih =>
    obtain ⟨o, is_root, reached⟩ := ih
    exact ⟨o, is_root, reached.next step⟩

/-- The way from a root goes through what it leads to at once. -/
theorem Reachable.first (reached : store.Reachable (· = o) r) :
    r = o ∨ ∃ between, store.Next o between ∧ store.Reachable (· = between) r := by
  induction reached with
  | root is_root => exact .inl is_root
  | @next _ r _ step ih =>
    rcases ih with rfl | ⟨between, first, reached⟩
    · exact .inr ⟨r, step, .root rfl⟩
    · exact .inr ⟨between, first, reached.next step⟩

theorem Reachable.leadsTo {v : Value} {inner : ScopeId}
    (reached : store.Reachable roots (.value v)) (leads : v.LeadsTo inner) :
    store.Reachable roots (.scope inner) := by
  induction leads with
  | closure captured => exact captured ▸ reached.next .closure
  | entry member _ ih => exact ih (reached.next (.entry member))

/-- The scopes among what can be reached from a scope are those of `Store.Reaches`, which passes
through values without a stop. -/
theorem reachable_scope_iff {origin id : ScopeId} :
    store.Reachable (· = .scope origin) (.scope id) ↔ store.Reaches origin id := by
  constructor
  · -- A value on the way leads to scopes that are reached, whatever scope it is asked about.
    have onward : ∀ r, store.Reachable (· = .scope origin) r →
        match r with
        | .scope id => store.Reaches origin id
        | .value v => ∀ inner, v.LeadsTo inner → store.Reaches origin inner := by
      intro r reached
      induction reached with
      | root is_root =>
        subst is_root
        exact .origin
      | next _ step ih =>
        cases step with
        | parent outward => exact ih.parent outward
        | binding bound => exact fun inner leads => ih.binding bound leads
        | entry member => exact fun inner leads => ih inner (.entry member leads)
        | closure => exact ih _ (.closure rfl)
    exact onward _
  · intro reached
    induction reached with
    | origin => exact .root rfl
    | parent _ outward ih => exact ih.next (.parent outward)
    | binding _ bound inside ih => exact (ih.next (.binding bound)).leadsTo inside

/-- The scope that owns a name can be reached from where the name is looked up. -/
theorem reachable_of_resolveWithin {name : String} {count : Nat} {id owner : ScopeId}
    (reached : store.Reachable roots (.scope id))
    (resolved : store.resolveWithin name count id = some owner) :
    store.Reachable roots (.scope owner) := by
  induction count generalizing id with
  | zero => cases resolved
  | succ count ih =>
    simp only [resolveWithin] at resolved
    split at resolved
    · cases resolved
      exact reached
    · obtain ⟨parent, outward, further⟩ := Option.bind_eq_some_iff.mp resolved
      exact ih (reached.next (.parent outward)) further

/-! What scopes lead to after a change of the store. -/

theorem Next.of_scope_eq {id : ScopeId} (step : later.Next (.scope id) o)
    (same : later.scope id = store.scope id) : store.Next (.scope id) o := by
  cases step with
  | parent outward => exact .parent (same ▸ outward)
  | binding bound => exact .binding (same ▸ bound)

theorem Next.of_value {v : Value} (step : later.Next (.value v) o) : store.Next (.value v) o := by
  cases step with
  | entry member => exact .entry member
  | closure => exact .closure

/-- Only a scope that was made leads anywhere. -/
theorem lt_size_of_next {id : ScopeId} (step : store.Next (.scope id) o) :
    id < store.scopes.size := by
  refine Nat.lt_of_not_le fun unmade => ?_
  have nothing := scope_of_le store id unmade
  cases step with
  | parent outward =>
    rw [nothing] at outward
    cases outward
  | binding bound =>
    rw [nothing] at bound
    cases bound

theorem next_create {parent id : ScopeId}
    (step : (store.create (some parent)).2.Next (.scope id) o) :
    store.Next (.scope id) o ∨ o = .scope parent := by
  by_cases new : id = store.scopes.size
  · have made := scope_create store (some parent) id
    rw [if_pos new] at made
    cases step with
    | parent outward =>
      rw [made] at outward
      cases outward
      exact .inr rfl
    | binding bound =>
      rw [made] at bound
      cases bound
  · exact .inl (step.of_scope_eq ((scope_create _ _ _).trans (if_neg new)))

/-- A scope that is changed may get a value in addition to those that it binds. -/
theorem next_modify {owner id : ScopeId} {change : Scope → Scope} {v : Value}
    (step : (store.modify owner change).Next (.scope id) o)
    (parent_eq : ∀ scope, (change scope).parent = scope.parent)
    (values : ∀ scope name binding, (change scope).find? name = some binding →
      binding.value = v ∨ ∃ old, scope.find? name = some old ∧ old.value = binding.value) :
    store.Next (.scope id) o ∨ o = .value v := by
  cases step with
  | parent outward =>
    rw [parent_modify store owner id parent_eq] at outward
    exact .inl (.parent outward)
  | @binding _ name binding bound =>
    by_cases own : id = owner ∧ owner < store.scopes.size
    · obtain ⟨rfl, made⟩ := own
      rw [scope_modify _ _ _ _ made, if_pos rfl] at bound
      rcases values _ name binding bound with new | ⟨old, found, same⟩
      · exact .inr (congrArg _ new)
      · exact .inl (same ▸ .binding found)
    · have same : (store.modify owner change).scope id = store.scope id := by
        by_cases different : id = owner
        · exact scope_modify_of_le _ _ _ _ (Nat.le_of_not_lt fun made => own ⟨different, made⟩)
        · exact scope_modify_of_ne _ different _
      exact .inl (.binding (same ▸ bound))

theorem next_bind {owner id : ScopeId} {name : String} {v : Value} {constant : Bool}
    (step : (store.bind owner name v constant).Next (.scope id) o) :
    store.Next (.scope id) o ∨ o = .value v := by
  unfold Store.bind at step
  refine next_modify step (fun _ => rfl) ?_
  intro scope x binding bound
  rw [Scope.find?_add] at bound
  rcases Option.or_eq_some_iff.mp bound with old | ⟨-, new⟩
  · exact .inr ⟨binding, old, rfl⟩
  · split at new <;> cases new
    exact .inl rfl

theorem next_set {site id : ScopeId} {name : String} {v : Value}
    (step : (store.set site name v).Next (.scope id) o) :
    store.Next (.scope id) o ∨ o = .value v := by
  unfold set at step
  split at step
  · exact .inl step
  · refine next_modify step (fun _ => rfl) ?_
    intro scope x binding bound
    rw [Scope.find?_update] at bound
    split at bound
    · obtain ⟨old, -, rfl⟩ := Option.map_eq_some_iff.mp bound
      exact .inl rfl
    · exact .inr ⟨binding, bound, rfl⟩

end Store

variable {roots others : Referent → Prop} {m n : Machine}

/-- A scope or a value that was made between two machines. A value without identity is not made. -/
def Referent.Created (m n : Machine) : Referent → Prop
  | .scope id => m.store.scopes.size ≤ id ∧ id < n.store.scopes.size
  | .value v => ∀ id, v.identity? = some id → m.nextIdentity ≤ id ∧ id < n.nextIdentity

/-- Where one may start after a change: from what could be reached before, from a new scope or from a
result. -/
inductive Machine.Later (m n : Machine) (roots : Referent → Prop) (result : Value → Prop) :
    Referent → Prop
  | before {r} (reached : m.store.Reachable roots r) : Later m n roots result r
  | scope {id} (created : (Referent.scope id).Created m n) : Later m n roots result (.scope id)
  | result {v} (given : result v) : Later m n roots result (.value v)

/-- A change that acts on what can be reached from some roots only: no other scope changes, and
nothing can be reached afterwards but what could be reached before and what was made. -/
structure Machine.Confined (roots : Referent → Prop) (result : Value → Prop) (m n : Machine) : Prop
    where
  size_le : m.store.scopes.size ≤ n.store.scopes.size
  nextIdentity_le : m.nextIdentity ≤ n.nextIdentity
  kept : ∀ id < m.store.scopes.size, ¬m.store.Reachable roots (.scope id) →
    n.store.scope id = m.store.scope id
  reached : ∀ r, n.store.Reachable (m.Later n roots result) r →
    m.store.Reachable roots r ∨ r.Created m n

end Scriptlet
