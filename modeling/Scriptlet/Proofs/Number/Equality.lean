import Scriptlet.Number.Notation

/-!
# Equality of numbers

Numbers are equal as doubles are: NaN equals nothing, the zeros are equal, and all others equal
themselves only. Equal numbers have the same text, since the value notation shows no sign of zero.
-/
namespace Scriptlet

namespace Number

variable {a b : Number}

theorem isZero_iff : a.isZero = true ↔ a.magnitude = 0 := decide_eq_true_iff

/-- Numbers have one key if they are the same or both zero. -/
theorem key_eq_iff : a.key = b.key ↔ a = b ∨ a.isZero = true ∧ b.isZero = true := by
  simp only [isZero_iff]
  constructor
  · intro same
    have spelled (signs : a.isNegative = b.isNegative) (sizes : a.magnitude = b.magnitude) :
        a = b := by
      rw [← ofMagnitude_magnitude a, ← ofMagnitude_magnitude b, signs, sizes]
    unfold key at same
    cases left : a.isNegative <;> cases right : b.isNegative <;>
      simp only [left, right, if_true, Bool.false_eq_true, if_false] at same
    · exact .inl (spelled (left.trans right.symm) (by omega))
    · exact .inr (by omega)
    · exact .inr (by omega)
    · exact .inl (spelled (left.trans right.symm) (by omega))
  · rintro (rfl | ⟨left, right⟩)
    · rfl
    · simp [key, left, right]

/-- Equality of doubles: NaN equals nothing, the zeros are equal, and all others equal themselves
only. -/
theorem equal_iff : a.equal b = true ↔
    a.isNaN = false ∧ b.isNaN = false ∧ (a = b ∨ a.isZero = true ∧ b.isZero = true) := by
  rw [← key_eq_iff]
  simp [equal, and_assoc]

theorem text_of_isZero (zero : a.isZero = true) : a.text = "0" := by
  have none : a.magnitude = 0 := isZero_iff.mp zero
  simp [text, isNaN, isInfinite, none, zero, infiniteMagnitude]

theorem text_eq_of_equal (equal : a.equal b = true) : a.text = b.text := by
  obtain ⟨-, -, rfl | ⟨left, right⟩⟩ := equal_iff.mp equal
  · rfl
  · rw [text_of_isZero left, text_of_isZero right]

theorem isZero_eq_of_equal (equal : a.equal b = true) : a.isZero = b.isZero := by
  obtain ⟨-, -, rfl | ⟨left, right⟩⟩ := equal_iff.mp equal
  · rfl
  · rw [left, right]

end Number

end Scriptlet
