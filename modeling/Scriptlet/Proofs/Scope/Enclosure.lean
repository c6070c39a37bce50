import Scriptlet.Proofs.Scope.Reachability

/-!
# What a run has at hand

A run that starts in a scope has at hand what can be reached from there and what is made on the way.
This is closed: what is at hand leads only to what is at hand (`Machine.Encloses`), and stays so when
a scope is made, a name is bound or assigned, or a part of it undergoes a change that is confined to
that part. In the end no more has become reachable than what was made.
-/
namespace Scriptlet

open Store

/-- What a run from `before` may deal with at a later machine: what could be reached from its roots,
scopes that were made since, and values that were made of such. -/
inductive Machine.AtHand (before : Machine) (roots : Referent → Prop) (m : Machine) :
    Referent → Prop
  | reached {r} (reached : before.store.Reachable roots r) : AtHand before roots m r
  | scope {id} (made : (Referent.scope id).Created before m) : AtHand before roots m (.scope id)
  | plain {v} (none : v.identity? = none) : AtHand before roots m (.value v)
  | object {id entries} (made : before.nextIdentity ≤ id ∧ id < m.nextIdentity)
      (inside : ∀ entry ∈ entries, AtHand before roots m (.value entry.2)) :
      AtHand before roots m (.value (.object id entries))
  | function {id closure} (made : before.nextIdentity ≤ id ∧ id < m.nextIdentity)
      (inside : AtHand before roots m (.scope closure.scope)) :
      AtHand before roots m (.value (.function id closure))
  | native {id name} (made : before.nextIdentity ≤ id ∧ id < m.nextIdentity) :
      AtHand before roots m (.value (.native id name))

variable {roots : Referent → Prop} {result : Value → Prop} {before m n : Machine} {r : Referent}

namespace Machine.AtHand

theorem mono (h : before.AtHand roots m r)
    (sizes : m.store.scopes.size ≤ n.store.scopes.size)
    (identities : m.nextIdentity ≤ n.nextIdentity) : before.AtHand roots n r := by
  induction h with
  | reached reached => exact .reached reached
  | scope made => exact .scope ⟨made.1, Nat.lt_of_lt_of_le made.2 sizes⟩
  | plain none => exact .plain none
  | object made _ ih => exact .object ⟨made.1, Nat.lt_of_lt_of_le made.2 identities⟩ ih
  | function made _ ih => exact .function ⟨made.1, Nat.lt_of_lt_of_le made.2 identities⟩ ih
  | native made => exact .native ⟨made.1, Nat.lt_of_lt_of_le made.2 identities⟩

theorem entry {id : Identity} {entries : Entries} {key : String} {v : Value}
    (h : before.AtHand roots m (.value (.object id entries))) (member : (key, v) ∈ entries) :
    before.AtHand roots m (.value v) := by
  cases h with
  | reached reached => exact .reached (reached.next (.entry member))
  | plain none => cases none
  | object _ inside => exact inside _ member

theorem closure {id : Identity} {closure : Closure}
    (h : before.AtHand roots m (.value (.function id closure))) :
    before.AtHand roots m (.scope closure.scope) := by
  cases h with
  | reached reached => exact .reached (reached.next .closure)
  | plain none => cases none
  | function _ inside => exact inside

theorem reached_or_created (h : before.AtHand roots m r) :
    before.store.Reachable roots r ∨ r.Created before m := by
  have made_of {v : Value} {id : Identity} (own : v.identity? = some id)
      (made : before.nextIdentity ≤ id ∧ id < m.nextIdentity) : (Referent.value v).Created before m := by
    intro id' same
    rw [own] at same
    cases same
    exact made
  cases h with
  | reached reached => exact .inl reached
  | scope made => exact .inr made
  | plain none => exact .inr fun id own => by rw [none] at own; cases own
  | object made _ => exact .inr (made_of rfl made)
  | function made _ => exact .inr (made_of rfl made)
  | native made => exact .inr (made_of rfl made)

/-- A scope that was there is at hand only if it could be reached. -/
theorem reached_of_lt {id : ScopeId} (h : before.AtHand roots m (.scope id))
    (old : id < before.store.scopes.size) : before.store.Reachable roots (.scope id) := by
  cases h with
  | reached reached => exact reached
  | scope made => exact absurd old (Nat.not_lt.mpr made.1)

end Machine.AtHand

/-- Between two operations of a run from `before`: scopes that are not at hand are as they were, and
what is at hand leads only to what is at hand. -/
structure Machine.Encloses (before : Machine) (roots : Referent → Prop) (m : Machine) : Prop where
  size_le : before.store.scopes.size ≤ m.store.scopes.size
  nextIdentity_le : before.nextIdentity ≤ m.nextIdentity
  kept : ∀ id < before.store.scopes.size, ¬before.store.Reachable roots (.scope id) →
    m.store.scope id = before.store.scope id
  next : ∀ {id o}, before.AtHand roots m (.scope id) → m.store.Next (.scope id) o →
    before.AtHand roots m o

namespace Machine.Encloses

theorem refl (before : Machine) (roots : Referent → Prop) :
    before.Encloses roots before where
  size_le := Nat.le_refl _
  nextIdentity_le := Nat.le_refl _
  kept _ _ _ := rfl
  next h step := by
    cases h with
    | reached reached => exact .reached (reached.next step)
    | scope made => exact absurd made.2 (Nat.not_lt.mpr made.1)

/-- From what is at hand one gets only to what is at hand. -/
theorem atHand_of_reachable (holds : before.Encloses roots m) {starts : Referent → Prop}
    (among : ∀ o, starts o → before.AtHand roots m o) (reached : m.store.Reachable starts r) :
    before.AtHand roots m r := by
  induction reached with
  | root is_root => exact among _ is_root
  | next _ step ih =>
    cases step with
    | parent outward => exact holds.next ih (.parent outward)
    | binding bound => exact holds.next ih (.binding bound)
    | entry member => exact ih.entry member
    | closure => exact ih.closure

/-- A name that is looked up from a scope at hand is found in such a scope. -/
theorem atHand_of_resolve? (holds : before.Encloses roots m) {id owner : ScopeId}
    {name : String} (h : before.AtHand roots m (.scope id))
    (resolved : m.store.resolve? id name = some owner) :
    before.AtHand roots m (.scope owner) := by
  have reached : m.store.Reachable (· = .scope id) (.scope owner) :=
    reachable_of_resolveWithin (.root rfl) resolved
  refine holds.atHand_of_reachable ?_ reached
  rintro _ rfl
  exact h

/-- A run that keeps to what is at hand is confined to its roots. -/
theorem confined (holds : before.Encloses roots m)
    (given : ∀ v, result v → before.AtHand roots m (.value v)) :
    before.Confined roots result m where
  size_le := holds.size_le
  nextIdentity_le := holds.nextIdentity_le
  kept := holds.kept
  reached r reached := by
    refine (holds.atHand_of_reachable ?_ reached).reached_or_created
    intro o later
    cases later with
    | before reached => exact .reached reached
    | scope created => exact .scope created
    | result is_result => exact given _ is_result

/-- Scopes at hand may change that still lead only to what is at hand. -/
theorem change (holds : before.Encloses roots m)
    (sizes : m.store.scopes.size ≤ n.store.scopes.size) (identities : m.nextIdentity ≤ n.nextIdentity)
    (kept : ∀ id < m.store.scopes.size, ¬before.AtHand roots m (.scope id) →
      n.store.scope id = m.store.scope id)
    (changed : ∀ id o, n.store.Next (.scope id) o →
      m.store.Next (.scope id) o ∨ before.AtHand roots n o) : before.Encloses roots n where
  size_le := Nat.le_trans holds.size_le sizes
  nextIdentity_le := Nat.le_trans holds.nextIdentity_le identities
  kept id old unreached := by
    have apart : ¬before.AtHand roots m (.scope id) := fun h => unreached (h.reached_of_lt old)
    rw [kept id (Nat.lt_of_lt_of_le old holds.size_le) apart, holds.kept id old unreached]
  next {id o} h step := by
    rcases changed id o step with earlier | new
    · have back : before.AtHand roots m (.scope id) := by
        cases h with
        | reached reached => exact .reached reached
        | scope made => exact .scope ⟨made.1, lt_size_of_next earlier⟩
      exact (holds.next back earlier).mono sizes identities
    · exact new

theorem newIdentity (holds : before.Encloses roots m) : before.Encloses roots m.newIdentity.2 :=
  holds.change (Nat.le_refl _) (Nat.le_succ _) (fun _ _ _ => rfl) fun _ _ step => .inl step

theorem newScope (holds : before.Encloses roots m) {parent : ScopeId}
    (h : before.AtHand roots m (.scope parent)) :
    before.Encloses roots (m.newScope (some parent)).2 ∧
      before.AtHand roots (m.newScope (some parent)).2 (.scope (m.newScope (some parent)).1) := by
  have size_eq : (m.newScope (some parent)).2.store.scopes.size = m.store.scopes.size + 1 := by
    simp [Machine.newScope, create]
  have sizes := (grows_create m.store (some parent)).size_le
  refine ⟨holds.change sizes (Nat.le_refl _) ?_ ?_, ?_⟩
  · intro id old _
    exact (scope_create m.store (some parent) id).trans (if_neg (Nat.ne_of_lt old))
  · intro id o step
    refine (next_create step).imp_right ?_
    rintro rfl
    exact h.mono sizes (Nat.le_refl _)
  · exact .scope ⟨holds.size_le, Nat.lt_of_lt_of_eq (Nat.lt_succ_self _) size_eq.symm⟩

theorem declare (holds : before.Encloses roots m) {scope : ScopeId}
    (h : before.AtHand roots m (.scope scope)) {v : Value}
    (has : before.AtHand roots m (.value v)) (name : String) (constant : Bool) :
    before.Encloses roots { m with store := m.store.bind scope name v constant } := by
  have sizes := (grows_bind m.store scope name v constant).size_le
  refine holds.change sizes (Nat.le_refl _) ?_ ?_
  · intro id _ apart
    have different : id ≠ scope := by
      rintro rfl
      exact apart h
    exact scope_modify_of_ne _ different _
  · intro id o step
    refine (next_bind step).imp_right ?_
    rintro rfl
    exact has.mono sizes (Nat.le_refl _)

theorem assign (holds : before.Encloses roots m) {scope : ScopeId}
    (h : before.AtHand roots m (.scope scope)) {v : Value}
    (has : before.AtHand roots m (.value v)) {name : String}
    (allowed : m.store.assignFault? scope name = none) :
    before.Encloses roots { m with store := m.store.set scope name v } := by
  have sizes := (grows_set m.store scope name v allowed).size_le
  obtain ⟨owner, -, resolved, -⟩ := owner_of_assignFault?_eq_none allowed
  refine holds.change sizes (Nat.le_refl _) ?_ ?_
  · intro id _ apart
    have different : id ≠ owner := by
      rintro rfl
      exact apart (holds.atHand_of_resolve? h resolved)
    simp only [Store.set, resolved]
    exact scope_modify_of_ne _ different _
  · intro id o step
    refine (next_set step).imp_right ?_
    rintro rfl
    exact has.mono sizes (Nat.le_refl _)

section

variable {starts : Referent → Prop} (holds : before.Encloses roots m)
  (among : ∀ o, starts o → before.AtHand roots m o) (confined : m.Confined starts result n)
include holds among confined

theorem atHand_of_later_scope {id : ScopeId}
    (reached : n.store.Reachable (m.Later n starts result) (.scope id)) :
    before.AtHand roots n (.scope id) := by
  rcases confined.reached _ reached with old | made
  · exact (holds.atHand_of_reachable among old).mono confined.size_le confined.nextIdentity_le
  · exact .scope ⟨Nat.le_trans holds.size_le made.1, made.2⟩

/-- By recursion on the value: what an object or a function that was made leads to can be reached as
well. -/
theorem atHand_of_later_value (v : Value)
    (reached : n.store.Reachable (m.Later n starts result) (.value v)) :
    before.AtHand roots n (.value v) := by
  have since {id : Identity} (made : m.nextIdentity ≤ id ∧ id < n.nextIdentity) :
      before.nextIdentity ≤ id ∧ id < n.nextIdentity :=
    ⟨Nat.le_trans holds.nextIdentity_le made.1, made.2⟩
  rcases confined.reached _ reached with old | made
  · exact (holds.atHand_of_reachable among old).mono confined.size_le confined.nextIdentity_le
  · match v, reached, made with
    | .object id entries, reached, made =>
      refine .object (since (made id rfl)) ?_
      rintro ⟨key, value⟩ member
      have smaller := List.sizeOf_lt_of_mem member
      exact atHand_of_later_value value (reached.next (.entry member))
    | .function id closure, reached, made =>
      exact .function (since (made id rfl))
        (holds.atHand_of_later_scope among confined (reached.next .closure))
    | .native id name, _, made => exact .native (since (made id rfl))
    | .number _, _, _ | .text _, _, _ | .boolean _, _, _ | .null, _, _ => exact .plain rfl
termination_by sizeOf v
decreasing_by
  simp only [Value.object.sizeOf_spec, Prod.mk.sizeOf_spec] at smaller ⊢
  omega

/-- A confined change of a part of what is at hand. -/
theorem call : before.Encloses roots n ∧ ∀ v, result v → before.AtHand roots n (.value v) := by
  refine ⟨holds.change confined.size_le confined.nextIdentity_le ?_ ?_, ?_⟩
  · intro id old apart
    exact confined.kept id old fun reached => apart (holds.atHand_of_reachable among reached)
  · intro id o step
    by_cases touched : n.store.Reachable (m.Later n starts result) (.scope id)
    · refine .inr ?_
      cases o with
      | scope id => exact holds.atHand_of_later_scope among confined (touched.next step)
      | value v => exact holds.atHand_of_later_value among confined v (touched.next step)
    · -- A scope that was made but is not new was there, and was not touched.
      have old : id < m.store.scopes.size := Nat.lt_of_not_le fun new =>
        touched (.root (.scope ⟨new, lt_size_of_next step⟩))
      have same := confined.kept id old fun reached => touched (.root (.before reached))
      exact .inl (step.of_scope_eq same)
  · intro v given
    exact holds.atHand_of_later_value among confined v (.root (.result given))

end

end Machine.Encloses

end Scriptlet
