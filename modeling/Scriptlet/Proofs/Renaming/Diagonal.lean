import Scriptlet.Proofs.Renaming.Machine
import Scriptlet.Proofs.Scope.Reachability
import Scriptlet.Proofs.Value.Equality

/-!
# A machine up to nothing

What a machine is up to renaming compares it with others; compared with itself it says that the
machine is one that runs can lead to, as far as it can be seen from a scope (`Machine.Proper`): what
can be reached was made, and parents before their children. Then each scope and identity that can be
reached is its own partner (`Renaming.diagonal`), and the other way round, whatever is related to
anything is proper (`Renaming.Relates.proper`).
-/
namespace Scriptlet

/-- What can be reached from a scope was made, parents before their children, and the native
functions among it are `print`. -/
structure Machine.Proper (m : Machine) (env : ScopeId) : Prop where
  made : ∀ {id}, m.store.Reachable (· = .scope env) (.scope id) → id < m.store.scopes.size
  older : ∀ {id parent}, m.store.Reachable (· = .scope env) (.scope id) →
    (m.store.scope id).parent = some parent → parent < id
  given : ∀ {v id}, m.store.Reachable (· = .scope env) (.value v) → v.identity? = some id →
    id < m.nextIdentity
  prints : ∀ {id name}, m.store.Reachable (· = .scope env) (.value (.native id name)) →
    name = Eval.Native.printName

/-- Some numbers, each paired off with itself. -/
def Pairing.identity (p : Nat → Prop) : Pairing where
  Pairs a b := a = b ∧ p a
  biUnique := ⟨fun _ _ _ left right => left.1.trans right.1.symm,
    fun _ _ _ left right => left.1.symm.trans right.1⟩

namespace Renaming

/-- What can be reached from a scope, paired off with itself. -/
def diagonal (m : Machine) (env : ScopeId) : Renaming where
  scopes := .identity fun id => m.store.Reachable (· = .scope env) (.scope id)
  identities := .identity fun id =>
    ∃ v, m.store.Reachable (· = .scope env) (.value v) ∧ v.identity? = some id

variable {ρ : Renaming} {m n : Machine} {env other : ScopeId} {v : Value} {r : Referent}

theorem diagonal_env (m : Machine) (env : ScopeId) : (diagonal m env).scopes.Pairs env env :=
  ⟨rfl, .root rfl⟩

theorem relatesEntries_self {entries : Entries}
    (each : ∀ entry ∈ entries, ρ.RelatesValue entry.2 entry.2) :
    ρ.RelatesEntries entries entries := by
  induction entries with
  | nil => exact .nil
  | cons entry rest ih =>
    rw [List.forall_mem_cons] at each
    exact .cons each.1 (ih each.2)

theorem relatesValue_diagonal (proper : m.Proper env)
    (reached : m.store.Reachable (· = .scope env) (.value v)) :
    (diagonal m env).RelatesValue v v := by
  induction v using Value.nesting with
  | plain v no_object =>
    cases v with
    | number n => exact .number n
    | text s => exact .text s
    | boolean b => exact .boolean b
    | null => exact .null
    | object id entries => exact absurd rfl (no_object id entries)
    | function id closure => exact .function ⟨rfl, _, reached, rfl⟩ ⟨rfl, reached.next .closure⟩
    | native id name =>
      obtain rfl := proper.prints reached
      exact .print ⟨rfl, _, reached, rfl⟩
  | object id entries ih =>
    refine .object ⟨rfl, _, reached, rfl⟩ (relatesEntries_self fun entry member => ?_)
    exact ih entry member (reached.next (.entry member))

theorem relates_diagonal (proper : m.Proper env) : (diagonal m env).Relates m m where
  store := by
    constructor
    · rintro a b ⟨rfl, reached⟩
      exact ⟨proper.made reached, proper.made reached⟩
    · rintro a b ⟨rfl, reached⟩
      constructor
      · cases outward : (m.store.scope a).parent with
        | none => exact .none
        | some parent => exact .some ⟨rfl, reached.next (.parent outward)⟩
      · intro name
        cases bound : (m.store.scope a).find? name with
        | none => exact .none
        | some binding =>
          exact .some ⟨rfl, relatesValue_diagonal proper (reached.next (.binding bound))⟩
    · rintro a b parent ⟨-, reached⟩
      exact proper.older reached
    · rintro a b parent ⟨rfl, reached⟩
      exact proper.older reached
  given := by
    rintro i j ⟨rfl, v, reached, own⟩
    exact ⟨proper.given reached own, proper.given reached own⟩
  room_eq := rfl

/-- What can be reached from a scope with a partner has a partner, too. -/
theorem RelatesStore.related_of_reachable {s t : Store} (h : ρ.RelatesStore s t)
    (pair : ρ.scopes.Pairs env other) (reached : s.Reachable (· = .scope env) r) :
    match r with
    | .scope id => ∃ partner, ρ.scopes.Pairs id partner
    | .value v => ∃ w, ρ.RelatesValue v w := by
  induction reached with
  | root is_root =>
    subst is_root
    exact ⟨other, pair⟩
  | next _ step ih =>
    cases step with
    | @parent id parent outward =>
      obtain ⟨partner, among⟩ := ih
      obtain ⟨absent, -⟩ | ⟨p, q, left, -, outer⟩ := optionRel_iff.mp (h.scope among).parent
      · rw [outward] at absent
        cases absent
      · obtain rfl : parent = p := Option.some.inj (outward.symm.trans left)
        exact ⟨q, outer⟩
    | @binding id name binding bound =>
      obtain ⟨partner, among⟩ := ih
      obtain ⟨absent, -⟩ | ⟨x, y, left, -, same⟩ :=
        optionRel_iff.mp ((h.scope among).bindings name)
      · rw [bound] at absent
        cases absent
      · obtain rfl : binding = x := Option.some.inj (bound.symm.trans left)
        exact ⟨y.value, same.value⟩
    | entry member =>
      obtain ⟨w, related⟩ := ih
      cases related with
      | object _ members =>
        obtain ⟨x, -, related⟩ := members.mem member
        exact ⟨x, related⟩
    | closure =>
      obtain ⟨w, related⟩ := ih
      cases related with
      | function _ scope => exact ⟨_, scope⟩

theorem Relates.proper (h : ρ.Relates m n) (pair : ρ.scopes.Pairs env other) : m.Proper env where
  made reached := by
    obtain ⟨partner, among⟩ := h.store.related_of_reachable pair reached
    exact (h.store.made among).1
  older reached := by
    obtain ⟨partner, among⟩ := h.store.related_of_reachable pair reached
    exact h.store.older_left among
  given reached own := by
    obtain ⟨w, related⟩ := h.store.related_of_reachable pair reached
    cases related with
    | object same _ | function same _ | print same =>
      cases own
      exact (h.given same).1
    | _ => cases own
  prints reached := by
    obtain ⟨w, related⟩ := h.store.related_of_reachable pair reached
    cases related with
    | print _ => rfl

end Renaming

namespace Machine

variable {m : Machine} {env : ScopeId}

/-- With a scope, all that can be reached from it are proper, such as those of its functions. -/
theorem Proper.of_reachable (proper : m.Proper env) {inner : ScopeId}
    (reached : m.store.Reachable (· = .scope env) (.scope inner)) : m.Proper inner := by
  have further : ∀ {r}, m.store.Reachable (· = .scope inner) r →
      m.store.Reachable (· = .scope env) r := fun later =>
    later.of_roots fun _ is_root => is_root ▸ reached
  exact ⟨fun later => proper.made (further later), fun later => proper.older (further later),
    fun later => proper.given (further later), fun later => proper.prints (further later)⟩

/-- A new scope inside a proper one is proper. -/
theorem Proper.newScope (proper : m.Proper env) :
    (m.newScope (some env)).2.Proper (m.newScope (some env)).1 := by
  have machines := Renaming.relates_diagonal proper
  have stores := machines.store.create (.some (Renaming.diagonal_env m env))
  let ρ := (Renaming.diagonal m env).withScope _ _ machines.store.free
  have renewed : ρ.Relates (m.newScope (some env)).2 (m.newScope (some env)).2 :=
    ⟨stores, machines.given, rfl⟩
  exact renewed.proper (.inr ⟨rfl, rfl⟩)

/-- A new global scope leads to nothing but its `print`. -/
theorem proper_newGlobalScope (m : Machine) :
    m.newGlobalScope.2.Proper m.newGlobalScope.1 := by
  obtain ⟨ρ, machines, pair⟩ := Renaming.exists_relates_newGlobalScope (m := m) (n := m) rfl
  exact machines.proper pair

end Machine

end Scriptlet
