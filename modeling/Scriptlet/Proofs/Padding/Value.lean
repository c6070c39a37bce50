import Scriptlet.Proofs.Scope.Reachability

/-!
# Values with renumbered scopes

A value mentions scopes only where it holds functions, which carry the number of the scope of their
declaration. When scopes are numbered anew, nothing else about values changes: not their identities,
so that they stay equal or different, nor the keys of their entries.
-/
namespace Scriptlet

namespace Value

mutual

/-- The value when scope `id` has the number `number id`. -/
def rescope (number : ScopeId → ScopeId) : Value → Value
  | .number n => .number n
  | .text s => .text s
  | .boolean b => .boolean b
  | .null => .null
  | .object id entries => .object id (rescopeEntries number entries)
  | .function id closure => .function id { closure with scope := number closure.scope }
  | .native id name => .native id name

def rescopeEntries (number : ScopeId → ScopeId) : Entries → Entries
  | [] => []
  | (key, value) :: rest => (key, value.rescope number) :: rescopeEntries number rest

end

/-- The value leads to the first `made` scopes only. -/
def Within (made : Nat) (v : Value) : Prop := ∀ scope, v.LeadsTo scope → scope < made

variable {number : ScopeId → ScopeId} {related : Value → Value → Prop} {v w : Value}
  {entries : Entries} {made later : Nat}

/-! Where a value leads. -/

theorem Within.mono (within : v.Within made) (grown : made ≤ later) : v.Within later :=
  fun scope leads => Nat.lt_of_lt_of_le (within scope leads) grown

/-- A value without an identity leads nowhere. -/
theorem within_of_plain (plain : v.identity? = none) : v.Within made := by
  intro scope leads
  cases leads <;> cases plain

theorem within_native {id : Identity} {name : String} : (native id name).Within made := nofun

theorem within_function {id : Identity} {closure : Closure} :
    (function id closure).Within made ↔ closure.scope < made := by
  constructor
  · exact fun within => within _ (.closure rfl)
  · rintro declared _ ⟨rfl⟩
    exact declared

theorem within_object {id : Identity} :
    (object id entries).Within made ↔ ∀ entry ∈ entries, entry.2.Within made := by
  constructor
  · exact fun within entry member scope leads => within scope (.entry member leads)
  · intro inside scope leads
    cases leads with
    | entry member leads => exact inside _ member scope leads

/-! What renumbering leaves as it is. -/

theorem rescope_of_plain (plain : v.identity? = none) : v.rescope number = v := by
  cases v <;> first | rfl | cases plain

mutual

/-- Scopes that a value does not lead to may get any numbers. -/
theorem rescope_eq_self (same : ∀ id < made, number id = id) :
    ∀ {v : Value}, v.Within made → v.rescope number = v
  | .number _, _ | .text _, _ | .boolean _, _ | .null, _ | .native _ _, _ => rfl
  | .function id ⟨name, params, body, scope⟩, within => by
    rw [rescope, same scope (within_function.mp within)]
  | .object id entries, within => by
    rw [rescope, rescopeEntries_eq_self same (within_object.mp within)]

theorem rescopeEntries_eq_self (same : ∀ id < made, number id = id) :
    ∀ {entries : Entries}, (∀ entry ∈ entries, entry.2.Within made) →
      rescopeEntries number entries = entries
  | [], _ => rfl
  | (key, value) :: rest, inside => by
    rw [List.forall_mem_cons] at inside
    rw [rescopeEntries, rescope_eq_self same inside.1, rescopeEntries_eq_self same inside.2]

end

theorem strictEqual_rescope (v w : Value) :
    (v.rescope number).strictEqual (w.rescope number) = v.strictEqual w := by
  cases v <;> cases w <;> rfl

theorem alike_rescopeEntries (inside : ∀ entry ∈ entries, related entry.2 (entry.2.rescope number)) :
    entries.Alike related (rescopeEntries number entries) := by
  induction entries with
  | nil => exact .nil
  | cons entry rest ih =>
    rw [List.forall_mem_cons] at inside
    exact .cons inside.1 (ih inside.2)

end Value

end Scriptlet
