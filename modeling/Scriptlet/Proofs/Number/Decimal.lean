import Scriptlet.Proofs.Number.Literal

/-!
# The number nearest to a decimal

What is nearest to a decimal depends on its value only. Settling exponents that are far out of
range without computing powers makes no difference (`magnitude_eq_nearest`), and neither does moving
zeros between the digits and the exponent. So the shortest decimal of a finite number reads back,
whether it was found on a grid or has all digits of the number (`magnitude_shortestDecimal`).
-/
namespace Scriptlet

theorem fivePow_pos (k : Nat) : 0 < fivePow k := Nat.pow_pos (by decide)

theorem twoPow_mono {j k : Nat} (le : j ≤ k) : twoPow j ≤ twoPow k :=
  Nat.pow_le_pow_right (by decide) le

theorem twoPow_le_tenPow (n : Nat) : twoPow (3 * n) ≤ tenPow n := by
  rw [twoPow, Nat.pow_eq, Nat.pow_mul]
  exact Nat.pow_le_pow_left (by decide) n

namespace Number

variable {num den : Nat}

theorem le_log2_of_twoPow_le {k v : Nat} (power : twoPow k ≤ v) : k ≤ v.log2 :=
  (Nat.le_log2 (Nat.ne_of_gt (Nat.lt_of_lt_of_le (twoPow_pos k) power))).mpr power

/-- Beyond the largest numbers lies only infinity. -/
theorem nearestMagnitude_of_large (pos : 0 < den) (large : twoPow 1200 * den ≤ num) :
    nearestMagnitude num den = infiniteMagnitude := by
  have quotient : twoPow (1200 + 1074) ≤ num * unitsPerOne / den := by
    rw [Nat.le_div_iff_mul_le pos, twoPow_add, Nat.mul_right_comm, unitsPerOne]
    exact Nat.mul_le_mul_right _ large
  have bits := le_log2_of_twoPow_le quotient
  -- Infinity has the magnitude of 2047 binades, so that the scale alone is past it.
  have scaled : infiniteMagnitude ≤ ((num * unitsPerOne / den).log2 - 52) * binade := by
    have scale : 2222 ≤ (num * unitsPerOne / den).log2 - 52 := by omega
    exact Nat.le_trans (by decide) (Nat.mul_le_mul_right binade scale)
  exact Nat.min_eq_right (Nat.le_trans scaled (Nat.le_add_right _ _))

/-- Below half of the smallest number lies only zero. -/
theorem nearestMagnitude_of_small (small : 2 * (num * unitsPerOne) < den) :
    nearestMagnitude num den = 0 := by
  have below : num * unitsPerOne < den := by omega
  have rounded : roundHalfEven (num * unitsPerOne) (den * twoPow 0) = 0 := by
    have one : den * twoPow 0 = den := Nat.mul_one den
    rw [one, roundHalfEven, Nat.mod_eq_of_lt below, if_pos small, Nat.div_eq_of_lt below]
  have scale : (num * unitsPerOne / den).log2 - 52 = 0 := by
    rw [Nat.div_eq_of_lt below]
    rfl
  simp only [nearestMagnitude, scale, rounded, Nat.zero_mul, Nat.zero_add, Nat.zero_min]

/-- Equal quotients are rounded alike. -/
theorem nearestMagnitude_congr {num' den' : Nat} (pos : 0 < den) (pos' : 0 < den')
    (same : num * den' = num' * den) : nearestMagnitude num den = nearestMagnitude num' den' := by
  rw [← nearestMagnitude_scale num den den' pos', same, Nat.mul_comm den,
    nearestMagnitude_scale num' den' den pos]

end Number

namespace Decimal

open Number (nearestMagnitude nearestMagnitude_congr nearestMagnitude_of_large
  nearestMagnitude_of_small nearestMagnitude_units nearestMagnitude_zero unitsPerOne)

/-- A decimal with so many places behind the point is less than half of the smallest number. -/
theorem small_of_places {digits e : Nat} (far : digits.log2 + 400 < e) :
    2 * (digits * unitsPerOne) < tenPow (e + 1) := by
  have below : digits < twoPow (digits.log2 + 1) := Nat.lt_log2_self
  have two : twoPow 1 = 2 := rfl
  calc 2 * (digits * unitsPerOne)
      < 2 * (twoPow (digits.log2 + 1) * unitsPerOne) :=
        Nat.mul_lt_mul_of_pos_left (Nat.mul_lt_mul_of_pos_right below (twoPow_pos _)) (by decide)
    _ = twoPow (1 + (digits.log2 + 1 + 1074)) := by
        rw [twoPow_add 1, twoPow_add (digits.log2 + 1), two, unitsPerOne]
    _ ≤ twoPow (3 * (e + 1)) := twoPow_mono (by omega)
    _ ≤ tenPow (e + 1) := twoPow_le_tenPow _

/-- What is nearest to a decimal, with all powers computed. -/
theorem magnitude_eq_nearest (d : Decimal) : d.magnitude =
    nearestMagnitude (d.digits * tenPow d.exponent.toNat) (tenPow (-d.exponent).toNat) := by
  obtain ⟨digits, exponent⟩ := d
  cases exponent with
  | ofNat e =>
    have places : (-(Int.ofNat e)).toNat = 0 := by simp
    have one : tenPow 0 = 1 := rfl
    rw [Number.magnitude_ofNat, places, one]
    change _ = nearestMagnitude (digits * tenPow e) 1
    split
    · next zero => rw [zero, Nat.zero_mul, nearestMagnitude_zero]
    · next nonzero =>
      split
      · next far =>
        refine (nearestMagnitude_of_large (by decide) ?_).symm
        have power : twoPow 1200 ≤ tenPow e :=
          Nat.le_trans (twoPow_mono (by omega)) (twoPow_le_tenPow e)
        rw [Nat.mul_one]
        exact Nat.le_trans power (Nat.le_mul_of_pos_left _ (Nat.pos_of_ne_zero nonzero))
      · rfl
  | negSucc e =>
    change (if digits.log2 + 400 < e then 0 else nearestMagnitude digits (tenPow (e + 1))) =
      nearestMagnitude (digits * 1) (tenPow (e + 1))
    rw [Nat.mul_one]
    split
    · next far => exact (nearestMagnitude_of_small (small_of_places far)).symm
    · rfl

/-- Zeros at the end of the digits may be counted in the exponent. -/
theorem magnitude_zeros (digits k : Nat) (exponent : Int) :
    magnitude ⟨digits * tenPow k, exponent⟩ = magnitude ⟨digits, exponent + k⟩ := by
  rw [magnitude_eq_nearest, magnitude_eq_nearest]
  refine nearestMagnitude_congr (tenPow_pos _) (tenPow_pos _) ?_
  dsimp only
  rw [Nat.mul_assoc, Nat.mul_assoc, Nat.mul_assoc, ← tenPow_add, ← tenPow_add, ← tenPow_add]
  congr 2
  omega

theorem magnitude_trimmed (d : Decimal) : d.trimmed.magnitude = d.magnitude := by
  have zeros := magnitude_zeros d.trimmed.digits (zerosOf d.digits) d.exponent
  rw [digits_trimmed] at zeros
  exact zeros.symm

end Decimal

namespace Number

variable {n : Number}

theorem magnitude_exactDecimal (finite : n.isFinite = true) :
    n.exactDecimal.magnitude = n.magnitude := by
  rw [Decimal.magnitude_eq_nearest, ← nearestMagnitude_units finite]
  change nearestMagnitude (n.units * fivePow 1074 * 1) (tenPow 1074) = _
  rw [Nat.mul_one, tenPow_eq, unitsPerOne]
  exact nearestMagnitude_scale _ _ _ (fivePow_pos 1074)

/-- The shortest decimal of a finite number reads back. -/
theorem magnitude_shortestDecimal (finite : n.isFinite = true) :
    n.shortestDecimal.magnitude = n.magnitude := by
  rw [shortestDecimal, Decimal.magnitude_trimmed]
  cases found : (List.range' 1 17).findSome? fun kept =>
      n.hit? n.leading ((Decimal.digitsOf n.leading.digits).length - kept) with
  | some d =>
    obtain ⟨kept, -, hit⟩ := List.exists_of_findSome?_eq_some found
    exact magnitude_of_neighbour? hit
  | none => exact magnitude_exactDecimal finite

end Number

end Scriptlet
