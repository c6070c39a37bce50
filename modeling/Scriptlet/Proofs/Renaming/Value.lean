import Scriptlet.Eval.Native
import Scriptlet.Proofs.Renaming.Basic
import Scriptlet.Proofs.Value.Resemblance

/-!
# Values up to renaming

Two values are related by a renaming when they are the same but for identities and scopes, which the
renaming pairs off. No operation of the language tells related values apart: they have the same
text, the same type and the same truth, and two of them are equal just if their partners are.
-/
namespace Scriptlet

namespace Renaming

mutual

inductive RelatesValue (ρ : Renaming) : Value → Value → Prop
  | number (n : Number) : RelatesValue ρ (.number n) (.number n)
  | text (s : String) : RelatesValue ρ (.text s) (.text s)
  | boolean (b : Bool) : RelatesValue ρ (.boolean b) (.boolean b)
  | null : RelatesValue ρ .null .null
  | object {i j entries others} (same : ρ.identities.Pairs i j)
      (members : RelatesEntries ρ entries others) :
      RelatesValue ρ (.object i entries) (.object j others)
  /-- Functions have the same declaration, spans included. -/
  | function {i j name params body a b} (same : ρ.identities.Pairs i j)
      (scope : ρ.scopes.Pairs a b) :
      RelatesValue ρ (.function i ⟨name, params, body, a⟩) (.function j ⟨name, params, body, b⟩)
  /-- The only native function is `print`. -/
  | print {i j} (same : ρ.identities.Pairs i j) :
      RelatesValue ρ (.native i Eval.Native.printName) (.native j Eval.Native.printName)

/-- Entries with the same keys in the same order. -/
inductive RelatesEntries (ρ : Renaming) : Entries → Entries → Prop
  | nil : RelatesEntries ρ [] []
  | cons {key v w entries others} (value : RelatesValue ρ v w)
      (members : RelatesEntries ρ entries others) :
      RelatesEntries ρ ((key, v) :: entries) ((key, w) :: others)

end

variable {ρ σ : Renaming} {v w a b : Value} {entries others : Entries}

mutual

theorem RelatesValue.mono (extended : ρ ≤ σ) :
    ∀ {v w : Value}, ρ.RelatesValue v w → σ.RelatesValue v w
  | _, _, .number n => .number n
  | _, _, .text s => .text s
  | _, _, .boolean b => .boolean b
  | _, _, .null => .null
  | _, _, .object same members => .object (extended.2 _ _ same) (members.mono extended)
  | _, _, .function same scope => .function (extended.2 _ _ same) (extended.1 _ _ scope)
  | _, _, .print same => .print (extended.2 _ _ same)

theorem RelatesEntries.mono (extended : ρ ≤ σ) :
    ∀ {entries others : Entries}, ρ.RelatesEntries entries others → σ.RelatesEntries entries others
  | _, _, .nil => .nil
  | _, _, .cons value members => .cons (value.mono extended) (members.mono extended)

end

mutual

theorem RelatesValue.symm : ∀ {v w : Value}, ρ.RelatesValue v w → ρ.symm.RelatesValue w v
  | _, _, .number n => .number n
  | _, _, .text s => .text s
  | _, _, .boolean b => .boolean b
  | _, _, .null => .null
  | _, _, .object same members => .object same members.symm
  | _, _, .function same scope => .function same scope
  | _, _, .print same => .print same

theorem RelatesEntries.symm :
    ∀ {entries others : Entries}, ρ.RelatesEntries entries others →
      ρ.symm.RelatesEntries others entries
  | _, _, .nil => .nil
  | _, _, .cons value members => .cons value.symm members.symm

end

/-- A value without an identity is the same on all machines. -/
theorem relatesValue_plain (none : v.identity? = none) : ρ.RelatesValue v v := by
  cases v with
  | number n => exact .number n
  | text s => exact .text s
  | boolean b => exact .boolean b
  | null => exact .null
  | object | function | native => cases none

theorem RelatesEntries.alike : ∀ {entries others : Entries}, ρ.RelatesEntries entries others →
    entries.Alike ρ.RelatesValue others
  | _, _, .nil => .nil
  | _, _, .cons value members => .cons value members.alike

theorem relatesEntries_of_alike (h : entries.Alike ρ.RelatesValue others) :
    ρ.RelatesEntries entries others := by
  induction h with
  | nil => exact .nil
  | cons value _ members => exact .cons value members

/-- Related values are of one kind, and functions have the same bodies. -/
theorem RelatesValue.resembles {bodies : List Stmt → List Stmt → Prop}
    (refl : ∀ body, bodies body body) (h : ρ.RelatesValue v w) :
    v.Resembles ρ.scopes.Pairs ρ.RelatesValue bodies w := by
  cases h with
  | number | text | boolean | null => exact .plain rfl
  | object _ members => exact .object members.alike
  | function _ scope => exact .function scope (refl _)
  | print => exact .native

/-- Related values have the same text. -/
theorem RelatesValue.render_eq (h : ρ.RelatesValue v w) : v.render = w.render :=
  Value.render_eq_of_resembles (RelatesValue.resembles (Eq.refl ·)) h

/-- Identities are paired off one to one, so that equality is decided alike. -/
theorem RelatesValue.strictEqual_eq (left : ρ.RelatesValue v w) (right : ρ.RelatesValue a b) :
    v.strictEqual a = w.strictEqual b := by
  cases left <;> cases right <;> first
    | rfl
    | exact decide_eq_decide.mpr (ρ.identities.eq_iff_eq ‹_› ‹_›)

/-- Every entry has a partner under the same key. -/
theorem RelatesEntries.mem (h : ρ.RelatesEntries entries others) {key : String}
    (entry : (key, v) ∈ entries) : ∃ w, (key, w) ∈ others ∧ ρ.RelatesValue v w := by
  induction entries generalizing others with
  | nil => cases entry
  | cons first rest ih =>
    cases h with
    | cons value members =>
      cases entry with
      | head => exact ⟨_, .head _, value⟩
      | tail _ later =>
        obtain ⟨w, found, related⟩ := ih members later
        exact ⟨w, .tail _ found, related⟩

end Renaming

end Scriptlet
