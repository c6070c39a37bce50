import Scriptlet.Number.Rounding

/-!
# Numbers that rounding keeps

A finite number is a significand of at most 53 bits and a scale, and rounding its exact value gives
it back (`nearestMagnitude_units`). The number nearest to a whole number is whole: where the scale
is too small to be one, the whole number has so few bits that rounding changes nothing.
-/
namespace Scriptlet

namespace Number

variable {n : Number}

theorem unitsPerOne_pos : 0 < unitsPerOne := twoPow_pos 1074

theorem log2_mul_twoPow {v : Nat} (pos : 0 < v) (k : Nat) : (v * twoPow k).log2 = v.log2 + k := by
  have positive : v * twoPow k ≠ 0 := Nat.ne_of_gt (Nat.mul_pos pos (twoPow_pos k))
  obtain ⟨low, high⟩ := (Nat.log2_eq_iff (Nat.ne_of_gt pos)).mp rfl
  rw [Nat.log2_eq_iff positive, Nat.add_right_comm, Nat.pow_add, Nat.pow_add]
  exact ⟨Nat.mul_le_mul_right _ low, Nat.mul_lt_mul_of_pos_right high (twoPow_pos k)⟩

/-- A significand with its leading bit determines the scale. -/
theorem log2_significand {m : Nat} (low : binade ≤ m) (high : m < 2 * binade) (s : Nat) :
    (m * twoPow s).log2 - 52 = s := by
  have pos : 0 < m := Nat.lt_of_lt_of_le (by decide) low
  have bits : m.log2 = 52 := (Nat.log2_eq_iff (Nat.ne_of_gt pos)).mpr ⟨low, high⟩
  rw [log2_mul_twoPow pos, bits, Nat.add_sub_cancel_left]

theorem magnitude_eq (n : Number) : n.magnitude = n.scale * binade + n.significand := by
  have le : n.scale * binade ≤ n.magnitude := by
    simp only [scale, binade]
    omega
  rw [significand]
  omega

theorem significand_lt (n : Number) : n.significand < 2 * binade := by
  simp only [significand, scale, binade]
  omega

theorem binade_le_significand (normal : binade ≤ n.magnitude) : binade ≤ n.significand := by
  simp only [significand, scale, binade] at *
  omega

theorem scale_of_subnormal (small : n.magnitude < binade) : n.scale = 0 := by
  simp only [scale, binade] at *
  omega

/-- The scale that rounding takes for the exact value of a number is its own. -/
theorem log2_units (n : Number) : n.units.log2 - 52 = n.scale := by
  rcases Nat.lt_or_ge n.magnitude binade with small | normal
  · have units : n.units = n.magnitude := by
      rw [Number.units, significand, scale_of_subnormal small, Nat.zero_mul, Nat.sub_zero]
      exact Nat.mul_one _
    rw [units, scale_of_subnormal small]
    rcases Nat.eq_zero_or_pos n.magnitude with zero | pos
    · rw [zero]
      rfl
    · have bound : n.magnitude.log2 < 52 := (Nat.log2_lt (Nat.ne_of_gt pos)).mpr small
      omega
  · exact log2_significand (binade_le_significand normal) (significand_lt n) n.scale

/-- The exact value of a finite number is nearest to the number itself. -/
theorem nearestMagnitude_units (finite : n.isFinite = true) :
    nearestMagnitude n.units unitsPerOne = n.magnitude := by
  have below : n.magnitude < infiniteMagnitude := of_decide_eq_true finite
  have scaled : n.units * unitsPerOne / unitsPerOne = n.units :=
    Nat.mul_div_cancel _ unitsPerOne_pos
  have rounded : roundHalfEven (n.units * unitsPerOne) (unitsPerOne * twoPow n.scale) =
      n.significand := by
    rw [Nat.mul_comm unitsPerOne, roundHalfEven_scale _ _ _ unitsPerOne_pos]
    exact roundHalfEven_exact _ _ (twoPow_pos n.scale)
  simp only [nearestMagnitude, scaled, log2_units, rounded, ← magnitude_eq]
  exact Nat.min_eq_left (Nat.le_of_lt below)

/-- Rounding is within one of the quotient. -/
theorem roundHalfEven_bounds (num den : Nat) :
    num / den ≤ roundHalfEven num den ∧ roundHalfEven num den ≤ num / den + 1 := by
  simp only [roundHalfEven]
  split
  · omega
  · split <;> omega

/-- A magnitude that is put together from a scale and a rounded significand. The significand may
have been carried up to the next power of two. -/
theorem units_of_magnitude {s m : Nat} (magnitude : n.magnitude = s * binade + m)
    (low : binade ≤ m) (high : m ≤ 2 * binade) : n.units = m * twoPow s := by
  rcases Nat.lt_or_ge m (2 * binade) with less | carried
  · have same : n.scale = s := by
      simp only [scale, magnitude, binade] at *
      omega
    rw [units, significand, same, magnitude, Nat.add_sub_cancel_left]
  · obtain rfl : m = 2 * binade := Nat.le_antisymm high carried
    have next : n.scale = s + 1 := by
      simp only [scale, magnitude, binade] at *
      omega
    have rest : n.significand = binade := by
      simp only [significand, next, magnitude, binade]
      omega
    rw [units, rest, next, twoPow_add, Nat.mul_comm 2, Nat.mul_assoc, Nat.mul_comm (twoPow s)]
    rfl

/-- A positive whole number keeps 53 bits at a scale that depends on its size. -/
theorem nearestMagnitude_whole {v : Nat} (pos : 0 < v) :
    ∃ s m, nearestMagnitude v 1 = min (s * binade + m) infiniteMagnitude ∧ binade ≤ m ∧
      m ≤ 2 * binade ∧ m = roundHalfEven (v * unitsPerOne) (twoPow s) := by
  have positive : v * unitsPerOne ≠ 0 := Nat.ne_of_gt (Nat.mul_pos pos unitsPerOne_pos)
  have bits : (v * unitsPerOne).log2 = v.log2 + 1074 := log2_mul_twoPow pos 1074
  obtain ⟨s, exponent⟩ : ∃ s, (v * unitsPerOne).log2 = 52 + s :=
    ⟨v.log2 + 1022, by rw [bits, Nat.add_comm 52, Nat.add_assoc]⟩
  have scale : (v * unitsPerOne).log2 - 52 = s := by omega
  obtain ⟨low, high⟩ := (Nat.log2_eq_iff positive).mp exponent
  rw [Nat.pow_add] at low
  rw [Nat.add_right_comm, Nat.pow_add] at high
  have quotient_low : binade ≤ v * unitsPerOne / twoPow s :=
    (Nat.le_div_iff_mul_le (twoPow_pos s)).mpr low
  have quotient_high : v * unitsPerOne / twoPow s < 2 * binade :=
    (Nat.div_lt_iff_lt_mul (twoPow_pos s)).mpr high
  obtain ⟨at_least, at_most⟩ := roundHalfEven_bounds (v * unitsPerOne) (twoPow s)
  refine ⟨s, _, ?_, Nat.le_trans quotient_low at_least, by omega, rfl⟩
  simp only [nearestMagnitude, Nat.div_one, scale, Nat.one_mul]

/-- The number nearest to a whole number is whole. -/
theorem units_of_nearest_whole {v : Nat} (pos : 0 < v) (finite : n.isFinite = true)
    (nearest : n.magnitude = nearestMagnitude v 1) :
    ∃ whole, 0 < whole ∧ n.units = whole * unitsPerOne := by
  obtain ⟨s, m, magnitude, low, high, rounded⟩ := nearestMagnitude_whole pos
  have below : n.magnitude < infiniteMagnitude := of_decide_eq_true finite
  have units : n.units = m * twoPow s := by
    refine units_of_magnitude ?_ low high
    omega
  have some_bits : 0 < m := Nat.lt_of_lt_of_le (by decide) low
  rcases Nat.lt_or_ge s 1074 with fraction | whole
  · -- The scale is below that of 1, so that the rounded quotient was exact.
    have power : unitsPerOne = twoPow (1074 - s) * twoPow s := by
      rw [← twoPow_add, Nat.sub_add_cancel (Nat.le_of_lt fraction)]
      rfl
    have exact : m = v * twoPow (1074 - s) := by
      rw [rounded, power, ← Nat.mul_assoc, roundHalfEven_exact _ _ (twoPow_pos s)]
    refine ⟨v, pos, ?_⟩
    rw [units, exact, power, Nat.mul_assoc]
  · have power : twoPow s = twoPow (s - 1074) * unitsPerOne := by
      rw [unitsPerOne, ← twoPow_add, Nat.sub_add_cancel whole]
    refine ⟨m * twoPow (s - 1074), Nat.mul_pos some_bits (twoPow_pos _), ?_⟩
    rw [units, power, Nat.mul_assoc]

end Number

end Scriptlet
