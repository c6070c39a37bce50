import Scriptlet.Number.Notation
import Scriptlet.Proofs.Number.Digits
import Scriptlet.Proofs.Number.Exactness

/-!
# Literals read back

A literal of a program is a text of digits. The number it denotes is whole, and the text of that
number is a text of digits again, one that denotes the same number. The shortest decimal of a whole
number has no places behind the point: among the grids that are tried is the one of whole numbers,
where the number itself is a hit, and coarser grids are tried before it.
-/
namespace Scriptlet

namespace Number

open Decimal (digitsOf valueOf zerosOf)

/-- A finite number that a text of digits denotes. -/
def IsLiteral (n : Number) : Prop :=
  n.isFinite = true ∧
    ∃ digits : List Char, digits ≠ [] ∧ (∀ c ∈ digits, c.isDigit = true) ∧
      ofNumeral? digits = some n

/-- A power of ten that is below a power of two is so with proportional exponents too. -/
theorem tenPow_le_twoPow {p q t b : Nat} (powers : tenPow p ≤ twoPow q) (some_ : q ≠ 0)
    (h : t * q ≤ p * b) : tenPow t ≤ twoPow b := by
  have raised : (10 ^ t) ^ q ≤ (2 ^ b) ^ q :=
    calc (10 ^ t) ^ q = 10 ^ (t * q) := (Nat.pow_mul ..).symm
      _ ≤ 10 ^ (p * b) := Nat.pow_le_pow_right (by decide) h
      _ = (tenPow p) ^ b := Nat.pow_mul ..
      _ ≤ (twoPow q) ^ b := Nat.pow_le_pow_left powers b
      _ = 2 ^ (q * b) := (Nat.pow_mul ..).symm
      _ = (2 ^ b) ^ q := by rw [Nat.mul_comm, Nat.pow_mul]
  exact (Nat.pow_le_pow_iff_left some_).mp raised

theorem lt_of_tenPow_lt {a b : Nat} (h : tenPow a < tenPow b) : a < b :=
  (Nat.pow_lt_pow_iff_right (by decide)).mp h

section
variable {n : Number} {whole : Nat}

/-- The estimate of the first place is never too large. -/
theorem firstPlace_of_whole (pos : 0 < whole)
    (exact : n.units = whole * unitsPerOne) :
    ∃ place : Nat, n.firstPlace = place ∧ place < (digitsOf whole).length := by
  have bits : n.units.log2 = whole.log2 + 1074 := by
    rw [exact]
    exact log2_mul_twoPow pos 1074
  refine ⟨whole.log2 * 1233 / 4096, ?_, ?_⟩
  · rw [firstPlace, bits]
    omega
  · have estimate : tenPow (whole.log2 * 1233 / 4096) ≤ twoPow whole.log2 :=
      tenPow_le_twoPow (p := 1233) (q := 4096) (by decide +kernel) (by decide) (by omega)
    have power : twoPow whole.log2 ≤ whole := Nat.log2_self_le (Nat.ne_of_gt pos)
    exact lt_of_tenPow_lt (Nat.lt_of_le_of_lt (Nat.le_trans estimate power)
      (Decimal.lt_tenPow_length whole))

/-- The first digits of a whole number: either the number itself with some zeros, or the number
without some of its digits. More than 17 digits are left in both cases. -/
theorem leading_of_whole (pos : 0 < whole)
    (exact : n.units = whole * unitsPerOne) :
    (∃ k : Nat, n.leading = ⟨whole * tenPow k, -k⟩ ∧ 17 < (digitsOf whole).length + k) ∨
      ∃ k : Nat, n.leading = ⟨whole / tenPow k, k⟩ ∧ k + 17 < (digitsOf whole).length := by
  obtain ⟨place, first, below⟩ := firstPlace_of_whole pos exact
  rcases Nat.lt_or_ge place 17 with few | many
  · left
    obtain ⟨k, rest⟩ : ∃ k, 17 = place + (k + 1) := ⟨16 - place, by clear exact; omega⟩
    have exponent : n.firstPlace - 17 = .negSucc k := by clear exact; omega
    refine ⟨k + 1, ?_, by clear exact; omega⟩
    rw [leading, exponent, digitsUpTo, exact, Nat.mul_right_comm,
      Nat.mul_div_cancel _ unitsPerOne_pos]
    rfl
  · right
    obtain ⟨k, rfl⟩ := Nat.exists_eq_add_of_le many
    have exponent : n.firstPlace - 17 = .ofNat k := by
      rw [first, Int.natCast_add, Int.add_comm]
      exact Int.add_sub_cancel _ _
    refine ⟨k, ?_, by clear exact; omega⟩
    rw [leading, exponent, digitsUpTo, exact, ← Nat.div_div_eq_div_mul,
      Nat.mul_div_cancel _ unitsPerOne_pos]
    rfl

/-- Behind the first digits stand as many places as the whole number has more. -/
theorem length_leading_of_whole (pos : 0 < whole)
    (exact : n.units = whole * unitsPerOne) :
    (((digitsOf n.leading.digits).length : Int) + n.leading.exponent = (digitsOf whole).length) ∧
      17 < (digitsOf n.leading.digits).length := by
  rcases leading_of_whole pos exact with ⟨k, leading, many⟩ | ⟨k, leading, many⟩
  · rw [leading, Decimal.length_digitsOf_mul_tenPow pos]
    refine ⟨?_, many⟩
    dsimp only
    clear exact
    omega
  · have less : k < (digitsOf whole).length := by clear exact; omega
    rw [leading, Decimal.length_digitsOf_div_tenPow pos less]
    dsimp only
    clear exact
    omega

theorem nearestMagnitude_of_whole (exact : n.units = whole * unitsPerOne)
    (finite : n.isFinite = true) :
    nearestMagnitude whole 1 = n.magnitude := by
  have scaled := nearestMagnitude_scale whole 1 unitsPerOne unitsPerOne_pos
  rw [Nat.one_mul, ← exact, nearestMagnitude_units finite] at scaled
  exact scaled.symm

theorem exponent_of_neighbour? {low d : Decimal} (h : n.neighbour? low = some d) :
    d.exponent = low.exponent := by
  simp only [neighbour?] at h
  split at h
  · split at h <;> cases h <;> rfl
  · split at h <;> cases h
    rfl

/-- Every hit stands on the grid that was tried. -/
theorem exponent_of_hit? {kept : Nat} {d : Decimal} (pos : 0 < whole)
    (exact : n.units = whole * unitsPerOne) (few : kept ≤ 17)
    (h : n.hit? n.leading ((digitsOf n.leading.digits).length - kept) = some d) :
    d.exponent = (digitsOf whole).length - kept := by
  obtain ⟨count, enough⟩ := length_leading_of_whole pos exact
  have grid : d.exponent =
      n.leading.exponent + ((digitsOf n.leading.digits).length - kept : Nat) :=
    exponent_of_neighbour? h
  clear exact
  omega

/-- The grid of whole numbers has a hit: the number itself. -/
theorem hit?_of_whole (pos : 0 < whole) (exact : n.units = whole * unitsPerOne)
    (finite : n.isFinite = true) (few : (digitsOf whole).length ≤ 17) :
    (n.hit? n.leading ((digitsOf n.leading.digits).length - (digitsOf whole).length)).isSome := by
  rcases leading_of_whole pos exact with ⟨k, leading, -⟩ | ⟨k, -, many⟩
  · have dropped : (digitsOf n.leading.digits).length - (digitsOf whole).length = k := by
      rw [leading, Decimal.length_digitsOf_mul_tenPow pos, Nat.add_sub_cancel_left]
    have grid : (-(k : Int)) + k = 0 := Int.add_left_neg _
    rw [hit?, dropped, leading, Nat.mul_div_cancel _ (tenPow_pos k), grid]
    have reads : Decimal.magnitude ⟨whole, 0⟩ = n.magnitude := by
      rw [magnitude_of_whole, nearestMagnitude_of_whole exact finite]
    rw [neighbour?, if_pos reads]
    split <;> rfl
  · clear exact
    omega

/-- A decimal without places behind the point that reads back as a number. -/
theorem reads_of_magnitude {d : Decimal} {e : Nat} (exponent : d.exponent = e)
    (reads : d.magnitude = n.magnitude) (finite : n.isFinite = true) (positive : 0 < n.magnitude) :
    nearestMagnitude (d.digits * tenPow e) 1 = n.magnitude := by
  obtain ⟨digits, place⟩ := d
  obtain rfl : place = .ofNat e := exponent
  have below : n.magnitude < infiniteMagnitude := of_decide_eq_true finite
  rw [magnitude_ofNat] at reads
  split at reads
  · omega
  · split at reads
    · omega
    · exact reads

/-- All digits of a whole number, with zeros behind the point. -/
theorem digits_exactDecimal (exact : n.units = whole * unitsPerOne) :
    n.exactDecimal.digits = whole * tenPow 1074 := by
  rw [exactDecimal, exact, tenPow_eq, unitsPerOne, Nat.mul_assoc]

/-- What is smaller than a number of a range stands before it. -/
theorem mem_before {before after : List Nat} {kept smaller count : Nat}
    (tried : List.range' 1 count = before ++ kept :: after) (pos : 0 < smaller)
    (less : smaller < kept) : smaller ∈ before := by
  have kept_tried : kept ∈ List.range' 1 count := by rw [tried]; simp
  have bound := List.mem_range'_1.mp kept_tried
  have member : smaller ∈ before ++ kept :: after := by
    rw [← tried, List.mem_range'_1]
    omega
  have sorted : (before ++ kept :: after).Pairwise (· < ·) := tried ▸ List.pairwise_lt_range'
  rcases List.mem_append.mp member with earlier | later
  · exact earlier
  · rcases List.mem_cons.mp later with rfl | behind
    · omega
    · have greater := (List.pairwise_cons.mp (List.pairwise_append.mp sorted).2.1).1 _ behind
      omega

/-- The shortest decimal of a whole number has no places behind the point and reads back. -/
theorem shortestDecimal_of_whole (pos : 0 < whole) (exact : n.units = whole * unitsPerOne)
    (finite : n.isFinite = true) (positive : 0 < n.magnitude) :
    ∃ e : Nat, n.shortestDecimal.exponent = e ∧
      nearestMagnitude (n.shortestDecimal.digits * tenPow e) 1 = n.magnitude := by
  cases found : (List.range' 1 17).findSome? fun kept =>
      n.hit? n.leading ((digitsOf n.leading.digits).length - kept) with
  | some d =>
    have shortest : n.shortestDecimal = d.trimmed := by rw [shortestDecimal, found]; rfl
    obtain ⟨before, kept, after, tried, hit, missed⟩ := List.findSome?_eq_some_iff.mp found
    have few : kept ≤ 17 := by
      have member : kept ∈ List.range' 1 17 := by rw [tried]; simp
      rw [List.mem_range'_1] at member
      omega
    have exponent := exponent_of_hit? pos exact few hit
    have enough : kept ≤ (digitsOf whole).length := by
      rcases Nat.lt_or_ge (digitsOf whole).length kept with missing | le
      · have earlier := mem_before tried (Decimal.length_digitsOf_pos whole) missing
        have hits := hit?_of_whole pos exact finite (by omega)
        rw [missed _ earlier] at hits
        cases hits
      · exact le
    obtain ⟨places, rest⟩ := Nat.exists_eq_add_of_le enough
    have whole_places : d.exponent = places := by omega
    obtain ⟨e, trimmed, value⟩ := Decimal.trimmed_of_exponent whole_places
    rw [shortest]
    refine ⟨e, trimmed, ?_⟩
    rw [value]
    exact reads_of_magnitude whole_places (magnitude_of_neighbour? hit) finite positive
  | none =>
    have shortest : n.shortestDecimal = n.exactDecimal.trimmed := by
      rw [shortestDecimal, found]
      rfl
    rw [shortest]
    obtain ⟨e, exponent, value⟩ :=
      Decimal.trimmed_of_zeros pos (digits_exactDecimal exact) rfl
    refine ⟨e, exponent, ?_⟩
    rw [value, nearestMagnitude_of_whole exact finite]

theorem nearestMagnitude_le (num den : Nat) : nearestMagnitude num den ≤ infiniteMagnitude :=
  Nat.min_le_right ..

theorem positional_of_exponent {d : Decimal} {e : Nat} (exponent : d.exponent = e) :
    d.positional = digitsOf d.digits ++ List.replicate e '0' := by
  obtain ⟨digits, place⟩ := d
  obtain rfl : place = .ofNat e := exponent
  rfl

/-- The text of a literal is a text of digits that denotes the same number. -/
theorem IsLiteral.reads (h : n.IsLiteral) :
    ∃ digits, n.sourceText = String.ofList digits ∧ digits ≠ [] ∧
      (∀ c ∈ digits, c.isDigit = true) ∧ ofNumeral? digits = some n := by
  obtain ⟨finite, given, full, all, denotes⟩ := h
  rw [ofNumeral?_of_digits full all] at denotes
  have made := Option.some.inj denotes
  have fits : nearestMagnitude (valueOf given) 1 < signWeight :=
    Nat.lt_of_le_of_lt (nearestMagnitude_le _ _) (by decide)
  have nearest : n.magnitude = nearestMagnitude (valueOf given) 1 := by
    rw [← made, magnitude_ofMagnitude fits]
  have unsigned : n.isNegative = false := by
    rw [← made, isNegative_ofMagnitude fits]
  have same : ofMagnitude false n.magnitude = n := by
    rw [← unsigned, ofMagnitude_magnitude]
  have below : n.magnitude < infiniteMagnitude := of_decide_eq_true finite
  have no_nan : n.isNaN = false := decide_eq_false (by omega)
  have no_infinity : n.isInfinite = false := decide_eq_false (by omega)
  rcases Nat.eq_zero_or_pos n.magnitude with zero | positive
  · have is_zero : n.isZero = true := decide_eq_true zero
    refine ⟨['0'], ?_, by simp, by simp, ?_⟩
    · simp [sourceText, no_nan, no_infinity, is_zero, withSign, unsigned]
    · rw [ofNumeral?_of_digits (by simp) (by simp)]
      have value : valueOf ['0'] = 0 := rfl
      rw [value, nearestMagnitude_zero, ← zero, same]
  · have not_zero : n.isZero = false := decide_eq_false (by omega)
    have value_pos : 0 < valueOf given := by
      rcases Nat.eq_zero_or_pos (valueOf given) with none_ | some_
      · rw [none_, nearestMagnitude_zero] at nearest
        omega
      · exact some_
    obtain ⟨whole, pos, exact⟩ := units_of_nearest_whole value_pos finite nearest
    obtain ⟨e, exponent, reads⟩ := shortestDecimal_of_whole pos exact finite positive
    have text_full : digitsOf n.shortestDecimal.digits ++ List.replicate e '0' ≠ [] :=
      List.append_ne_nil_of_left_ne_nil (Decimal.digitsOf_ne_nil _) _
    have text_digits : ∀ c ∈ digitsOf n.shortestDecimal.digits ++ List.replicate e '0',
        c.isDigit = true := by
      intro c member
      rcases List.mem_append.mp member with digit | place
      · exact Decimal.isDigit_of_mem_digitsOf digit
      · rw [List.eq_of_mem_replicate place]
        rfl
    refine ⟨_, ?_, text_full, text_digits, ?_⟩
    · simp [sourceText, no_nan, no_infinity, not_zero, withSign, unsigned,
        positional_of_exponent exponent]
    · rw [ofNumeral?_of_digits text_full text_digits, Decimal.valueOf_append_zeros,
        Decimal.valueOf_digitsOf, reads, same]

end

end Number

end Scriptlet
