import Mathlib.Data.List.TakeDrop
import Mathlib.Data.List.TakeWhile
import Scriptlet.Number.Decimal
import Scriptlet.Number.Numeral

/-!
# Texts of digits

What the digits of a natural number are, how many there are, and what a text of digits denotes.
Multiplying by a power of ten puts zeros behind the digits, dividing by one cuts digits off, and
trimming a decimal takes exactly the zeros at the end away.
-/
namespace Scriptlet

namespace Decimal

theorem valueOf_digitsOf (n : Nat) : valueOf (digitsOf n) = n := Nat.ofDigitChars_ten_toDigits

theorem isDigit_of_mem_digitsOf {n : Nat} {c : Char} (h : c ∈ digitsOf n) : c.isDigit = true :=
  Nat.isDigit_of_mem_toDigits (by decide) (by decide) h

theorem digitsOf_ne_nil (n : Nat) : digitsOf n ≠ [] := Nat.toDigits_ne_nil

theorem length_digitsOf_pos (n : Nat) : 0 < (digitsOf n).length := Nat.length_toDigits_pos

theorem valueOf_append_zeros (digits : List Char) (k : Nat) :
    valueOf (digits ++ List.replicate k '0') = valueOf digits * tenPow k := by
  have split : valueOf (digits ++ List.replicate k '0') = 10 ^ k * valueOf digits := by
    unfold valueOf
    exact (Nat.ofDigitChars_append 0).trans Nat.ofDigitChars_replicate_zero
  rw [split, Nat.mul_comm]
  rfl

/-- A number has at most `k` digits just if it is below the power of ten with exponent `k`. -/
theorem length_digitsOf_le_iff {n k : Nat} (h : 0 < k) : (digitsOf n).length ≤ k ↔ n < tenPow k :=
  Nat.length_toDigits_le_iff (by decide) h

/-- Where a number lies between powers of ten. -/
theorem length_digitsOf_eq {n k : Nat} (low : tenPow k ≤ n) (high : n < tenPow (k + 1)) :
    (digitsOf n).length = k + 1 := by
  have le : (digitsOf n).length ≤ k + 1 := (length_digitsOf_le_iff (by omega)).mpr high
  rcases Nat.lt_or_ge k (digitsOf n).length with more | fewer
  · omega
  · cases k with
    | zero => have := length_digitsOf_pos n; omega
    | succ k =>
      have below : n < tenPow (k + 1) := (length_digitsOf_le_iff (Nat.succ_pos k)).mp fewer
      omega

theorem tenPow_le_of_pos {n : Nat} (pos : 0 < n) : tenPow ((digitsOf n).length - 1) ≤ n := by
  rcases Nat.lt_or_ge n (tenPow ((digitsOf n).length - 1)) with below | le
  · have positive := length_digitsOf_pos n
    rcases Nat.eq_zero_or_pos ((digitsOf n).length - 1) with one | more
    · rw [one] at below
      have : tenPow 0 = 1 := rfl
      omega
    · have fewer := (length_digitsOf_le_iff more).mpr below
      omega
  · exact le

theorem lt_tenPow_length (n : Nat) : n < tenPow (digitsOf n).length :=
  (length_digitsOf_le_iff (length_digitsOf_pos n)).mp (Nat.le_refl _)

theorem length_digitsOf_mul_tenPow {n : Nat} (pos : 0 < n) (k : Nat) :
    (digitsOf (n * tenPow k)).length = (digitsOf n).length + k := by
  have positive := length_digitsOf_pos n
  have low : tenPow ((digitsOf n).length - 1 + k) ≤ n * tenPow k := by
    rw [tenPow_add]
    exact Nat.mul_le_mul_right _ (tenPow_le_of_pos pos)
  have high : n * tenPow k < tenPow ((digitsOf n).length - 1 + k + 1) := by
    have exponent : (digitsOf n).length - 1 + k + 1 = (digitsOf n).length + k := by omega
    rw [exponent, tenPow_add]
    exact Nat.mul_lt_mul_of_pos_right (lt_tenPow_length n) (tenPow_pos k)
  have count := length_digitsOf_eq low high
  omega

theorem length_digitsOf_div_tenPow {n k : Nat} (pos : 0 < n) (less : k < (digitsOf n).length) :
    (digitsOf (n / tenPow k)).length = (digitsOf n).length - k := by
  have low : tenPow ((digitsOf n).length - k - 1) ≤ n / tenPow k := by
    rw [Nat.le_div_iff_mul_le (tenPow_pos k), ← tenPow_add]
    have exponent : (digitsOf n).length - k - 1 + k = (digitsOf n).length - 1 := by omega
    rw [exponent]
    exact tenPow_le_of_pos pos
  have high : n / tenPow k < tenPow ((digitsOf n).length - k - 1 + 1) := by
    rw [Nat.div_lt_iff_lt_mul (tenPow_pos k), ← tenPow_add]
    have exponent : (digitsOf n).length - k - 1 + 1 + k = (digitsOf n).length := by omega
    rw [exponent]
    exact lt_tenPow_length n
  have count := length_digitsOf_eq low high
  omega

/-- Zeros behind the digits. -/
theorem digitsOf_mul_tenPow {n : Nat} (pos : 0 < n) (k : Nat) :
    digitsOf (n * tenPow k) = digitsOf n ++ List.replicate k '0' := by
  induction k with
  | zero =>
    have one : n * tenPow 0 = n := Nat.mul_one n
    rw [one, List.replicate_zero, List.append_nil]
  | succ k ih =>
    have split : n * tenPow (k + 1) = 10 * (n * tenPow k) + 0 := by
      have power : tenPow (k + 1) = tenPow k * 10 := rfl
      rw [power, ← Nat.mul_assoc, Nat.mul_comm, Nat.add_zero]
    have digits : digitsOf (10 * (n * tenPow k) + 0) = digitsOf (n * tenPow k) ++ digitsOf 0 :=
      (Nat.toDigits_append_toDigits (by decide) (Nat.mul_pos pos (tenPow_pos k)) (by decide)).symm
    rw [split, digits, ih, List.append_assoc, List.replicate_succ']
    rfl

/-- How many zeros stand at the end of a number. -/
def zerosOf (n : Nat) : Nat := ((digitsOf n).reverse.takeWhile (· = '0')).length

theorem trimmed_eq (d : Decimal) :
    d.trimmed = ⟨d.digits / tenPow (zerosOf d.digits), d.exponent + zerosOf d.digits⟩ := rfl

/-- A text is what stands before the zeros at its end, and these zeros. -/
theorem split_zeros (text : List Char) :
    ∃ front, text = front ++ List.replicate (text.reverse.takeWhile (· = '0')).length '0' := by
  have zeros : text.reverse.takeWhile (· = '0') =
      List.replicate (text.reverse.takeWhile (· = '0')).length '0' := by
    refine List.eq_replicate_of_mem fun c member => ?_
    exact of_decide_eq_true (List.all_eq_true.mp List.all_takeWhile c member)
  have whole : (text.reverse.takeWhile (· = '0') ++ text.reverse.dropWhile (· = '0')).reverse = text := by
    rw [List.takeWhile_append_dropWhile, List.reverse_reverse]
  rw [List.reverse_append, zeros, List.reverse_replicate] at whole
  exact ⟨_, whole.symm⟩

theorem tenPow_zerosOf_dvd (n : Nat) : tenPow (zerosOf n) ∣ n := by
  obtain ⟨front, split⟩ := split_zeros (digitsOf n)
  refine ⟨valueOf front, ?_⟩
  have value := congrArg valueOf split
  rw [valueOf_digitsOf, valueOf_append_zeros, Nat.mul_comm] at value
  exact value

theorem le_zerosOf {n k : Nat} (pos : 0 < n) : k ≤ zerosOf (n * tenPow k) := by
  rw [zerosOf, digitsOf_mul_tenPow pos, List.reverse_append, List.reverse_replicate,
    List.takeWhile_append_of_pos (by simp), List.length_append, List.length_replicate]
  exact Nat.le_add_right k _

theorem digits_trimmed (d : Decimal) : d.trimmed.digits * tenPow (zerosOf d.digits) = d.digits :=
  Nat.div_mul_cancel (tenPow_zerosOf_dvd d.digits)

/-- Trimming a decimal without places behind the point. -/
theorem trimmed_of_exponent {d : Decimal} {e : Nat} (exponent : d.exponent = e) :
    ∃ e' : Nat, d.trimmed.exponent = e' ∧ d.trimmed.digits * tenPow e' = d.digits * tenPow e := by
  refine ⟨zerosOf d.digits + e, ?_, ?_⟩
  · rw [trimmed_eq, exponent, Int.natCast_add]
    exact Int.add_comm _ _
  · rw [tenPow_add, ← Nat.mul_assoc, digits_trimmed]

/-- Trimming a decimal whose places behind the point are zeros. -/
theorem trimmed_of_zeros {d : Decimal} {value k : Nat} (pos : 0 < value)
    (digits : d.digits = value * tenPow k) (exponent : d.exponent = -k) :
    ∃ e : Nat, d.trimmed.exponent = e ∧ d.trimmed.digits * tenPow e = value := by
  have zeros : k ≤ zerosOf d.digits := digits ▸ le_zerosOf pos
  obtain ⟨e, more⟩ := Nat.exists_eq_add_of_le zeros
  refine ⟨e, ?_, ?_⟩
  · rw [trimmed_eq, exponent, more]
    dsimp only
    omega
  · have whole := digits_trimmed d
    rw [more, Nat.add_comm, tenPow_add, ← Nat.mul_assoc] at whole
    exact Nat.eq_of_mul_eq_mul_right (tenPow_pos k) (whole.trans digits)

end Decimal

namespace Number

theorem toLower_of_isDigit {c : Char} (h : c.isDigit = true) : c.toLower = c := by
  unfold Char.toLower
  rw [dif_neg]
  rintro ⟨upper, -⟩
  have nine : c.val.toNat ≤ 57 := UInt32.le_iff_toNat_le.mp (of_decide_eq_true (Bool.and_eq_true_iff.mp h).2)
  have capital : 65 ≤ c.val.toNat := UInt32.le_iff_toNat_le.mp upper
  omega

/-- A text of digits is none of the words that denote numbers. -/
theorem word_ne_of_digit {c first : Char} {rest : List Char} {word : String}
    (digit : c.isDigit = true) (begins : word.toList.head? = some first)
    (other : first.isDigit = false) : String.ofList ((c :: rest).map Char.toLower) ≠ word := by
  rintro rfl
  rw [String.toList_ofList, List.map_cons, List.head?_cons, toLower_of_isDigit digit] at begins
  cases begins
  rw [digit] at other
  cases other

theorem splitSign_of_digit {c : Char} {rest : List Char} (digit : c.isDigit = true) :
    Numeral.splitSign (c :: rest) = (false, c :: rest) := by
  unfold Numeral.splitSign
  split
  · rename_i plain
    cases plain
    cases digit
  · rename_i plain
    cases plain
    cases digit
  · rfl

theorem decimal?_of_digits {digits : List Char} (full : digits ≠ [])
    (all : ∀ c ∈ digits, c.isDigit = true) :
    Numeral.decimal? digits = some ⟨Decimal.valueOf digits, 0⟩ := by
  have split : Numeral.splitDigits digits = (digits, []) := by
    rw [Numeral.splitDigits, List.span_eq_takeWhile_dropWhile, List.takeWhile_eq_self_iff.mpr all,
      List.dropWhile_eq_nil_iff.mpr all]
  simp [Numeral.decimal?, split, Numeral.splitFraction, Numeral.exponent?, full]

theorem nearestMagnitude_zero (den : Nat) : nearestMagnitude 0 den = 0 := by
  simp [nearestMagnitude, roundHalfEven]

theorem magnitude_ofNat (digits e : Nat) :
    Decimal.magnitude ⟨digits, .ofNat e⟩ =
      if digits = 0 then 0
      else if 400 < e then infiniteMagnitude
      else nearestMagnitude (digits * tenPow e) 1 := rfl

theorem magnitude_of_whole (n : Nat) : Decimal.magnitude ⟨n, 0⟩ = nearestMagnitude n 1 := by
  have one : n * tenPow 0 = n := Nat.mul_one n
  have whole := magnitude_ofNat n 0
  rw [if_neg (by decide : ¬ 400 < 0), one] at whole
  rcases Nat.eq_zero_or_pos n with rfl | pos
  · rw [nearestMagnitude_zero]
    exact whole
  · rwa [if_neg (Nat.ne_of_gt pos)] at whole

/-- What a text of digits denotes. -/
theorem ofNumeral?_of_digits {digits : List Char} (full : digits ≠ [])
    (all : ∀ c ∈ digits, c.isDigit = true) :
    ofNumeral? digits = some (ofMagnitude false (nearestMagnitude (Decimal.valueOf digits) 1)) := by
  have decimal := decimal?_of_digits full all
  obtain ⟨c, rest, rfl⟩ := List.exists_cons_of_ne_nil full
  have digit := all c List.mem_cons_self
  have not_inf : String.ofList ((c :: rest).map Char.toLower) ≠ "inf" :=
    word_ne_of_digit digit rfl (by decide)
  have not_infinity : String.ofList ((c :: rest).map Char.toLower) ≠ "infinity" :=
    word_ne_of_digit digit rfl (by decide)
  have not_nan : String.ofList ((c :: rest).map Char.toLower) ≠ "nan" :=
    word_ne_of_digit digit rfl (by decide)
  simp only [ofNumeral?, splitSign_of_digit digit, not_inf, not_infinity, not_nan, decide_false,
    Bool.or_self, Bool.false_eq_true, if_false, decimal, Option.map_some, Decimal.toNumber,
    magnitude_of_whole]

end Number

end Scriptlet
