import Mathlib.Logic.Relator
import Mathlib.Order.Basic
import Scriptlet.Value.Basic

/-!
# Renamings

The number of a scope and the identity of a value mean nothing by themselves: they only tell one
from another. A renaming pairs off scopes and identities of one machine with those of another, one
to one. It grows while programs run on both machines, by pairs of numbers that were just given out.
-/
namespace Scriptlet

section
variable {α β γ δ : Type} {r : α → β → Prop} {r' : γ → δ → Prop} {x : Option α} {y : Option β}

/-- Related options are both absent, or there is a related pair. -/
theorem optionRel_iff :
    Option.Rel r x y ↔ x = none ∧ y = none ∨ ∃ a b, x = some a ∧ y = some b ∧ r a b := by
  constructor
  · rintro (related | _)
    · exact .inr ⟨_, _, rfl, rfl, related⟩
    · exact .inl ⟨rfl, rfl⟩
  · rintro (⟨rfl, rfl⟩ | ⟨a, b, rfl, rfl, related⟩)
    · exact .none
    · exact .some related

theorem optionRel_mono {r' : α → β → Prop} (h : Option.Rel r x y) (k : ∀ a b, r a b → r' a b) :
    Option.Rel r' x y := by
  cases h with
  | none => exact .none
  | some related => exact .some (k _ _ related)

theorem optionRel_bind {f : α → Option γ} {g : β → Option δ} (h : Option.Rel r x y)
    (k : ∀ a b, x = some a → y = some b → r a b → Option.Rel r' (f a) (g b)) :
    Option.Rel r' (x.bind f) (y.bind g) := by
  cases h with
  | none => exact .none
  | some related => exact k _ _ rfl rfl related

theorem optionRel_map {f : α → γ} {g : β → δ} (h : Option.Rel r x y)
    (k : ∀ a b, r a b → r' (f a) (g b)) : Option.Rel r' (x.map f) (y.map g) := by
  cases h with
  | none => exact .none
  | some related => exact .some (k _ _ related)

theorem optionRel_symm {r' : β → α → Prop} (h : Option.Rel r x y) (k : ∀ a b, r a b → r' b a) :
    Option.Rel r' y x := by
  cases h with
  | none => exact .none
  | some related => exact .some (k _ _ related)

end

/-- Numbers paired off, each with one other at most. -/
structure Pairing where
  Pairs : Nat → Nat → Prop
  biUnique : Relator.BiUnique Pairs

namespace Pairing

variable {p : Pairing} {a b c d : Nat}

instance : Preorder Pairing where
  le p q := ∀ a b, p.Pairs a b → q.Pairs a b
  le_refl _ _ _ pair := pair
  le_trans _ _ _ first second a b pair := second a b (first a b pair)

/-- Of two pairs, both sides are the same or both are different. -/
theorem eq_iff_eq (left : p.Pairs a b) (right : p.Pairs c d) : a = c ↔ b = d := by
  constructor
  · rintro rfl
    exact p.biUnique.right left right
  · rintro rfl
    exact p.biUnique.left left right

/-- The pairs the other way round. -/
def symm (p : Pairing) : Pairing where
  Pairs a b := p.Pairs b a
  biUnique := ⟨fun _ _ _ left right => p.biUnique.right left right,
    fun _ _ _ left right => p.biUnique.left left right⟩

/-- No pairs. -/
def empty : Pairing where
  Pairs _ _ := False
  biUnique := ⟨nofun, nofun⟩

/-- One more pair, of numbers that have no partner yet. -/
def insert (p : Pairing) (a b : Nat) (free : ∀ c d, p.Pairs c d → c ≠ a ∧ d ≠ b) : Pairing where
  Pairs c d := p.Pairs c d ∨ c = a ∧ d = b
  biUnique := by
    constructor
    · rintro c d e (left | ⟨rfl, rfl⟩) (right | ⟨rfl, same⟩)
      · exact p.biUnique.left left right
      · exact absurd same (free _ _ left).2
      · exact absurd rfl (free _ _ right).2
      · rfl
    · rintro c d e (left | ⟨rfl, rfl⟩) (right | ⟨same, rfl⟩)
      · exact p.biUnique.right left right
      · exact absurd same (free _ _ left).1
      · exact absurd rfl (free _ _ right).1
      · rfl

end Pairing

/-- Scopes and identities of two machines, paired off. -/
structure Renaming where
  scopes : Pairing
  identities : Pairing

namespace Renaming

instance : Preorder Renaming where
  le ρ σ := ρ.scopes ≤ σ.scopes ∧ ρ.identities ≤ σ.identities
  le_refl _ := ⟨le_refl _, le_refl _⟩
  le_trans _ _ _ first second := ⟨first.1.trans second.1, first.2.trans second.2⟩

def empty : Renaming := ⟨.empty, .empty⟩

def symm (ρ : Renaming) : Renaming := ⟨ρ.scopes.symm, ρ.identities.symm⟩

end Renaming

end Scriptlet
