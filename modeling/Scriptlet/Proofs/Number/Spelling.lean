import Scriptlet.Proofs.Number.Decimal

/-!
# Written decimals are read

The two notations of a decimal are numerals: digits, a point and an exponent. Reading takes them
apart again, to a decimal of the same value (`spells_positional`, `spells_scientific`). One notation
has only digits and a point, and the other ends in an exponent with a sign.
-/
namespace Scriptlet

namespace Numeral

open Decimal (digitsOf valueOf)

variable {whole fraction after digits rest : List Char} {e : Int}

theorem splitDigits_append (all : ∀ c ∈ digits, c.isDigit = true)
    (stop : ∀ c ∈ rest.head?, c.isDigit = false) :
    splitDigits (digits ++ rest) = (digits, rest) := by
  rw [splitDigits, List.span_eq_takeWhile_dropWhile, List.takeWhile_append_of_pos all,
    List.dropWhile_append_of_pos all]
  cases rest with
  | nil => rw [List.takeWhile_nil, List.dropWhile_nil, List.append_nil]
  | cons c rest =>
    have other : ¬c.isDigit = true := by simp [stop c rfl]
    rw [List.takeWhile_cons_of_neg other, List.dropWhile_cons_of_neg other, List.append_nil]

theorem head_of_exponent? (exponent : exponent? after = some e) :
    ∀ c ∈ after.head?, c = 'e' ∨ c = 'E' := by
  cases after with
  | nil => simp
  | cons c rest =>
    rintro _ ⟨⟩
    by_contra other
    simp [exponent?, other] at exponent

theorem stop_of_exponent? (exponent : exponent? after = some e) :
    ∀ c ∈ after.head?, c.isDigit = false := by
  intro c member
  rcases head_of_exponent? exponent c member with rfl | rfl <;> rfl

/-- Digits, and perhaps an exponent. -/
theorem decimal?_whole (full : whole ≠ []) (all : ∀ c ∈ whole, c.isDigit = true)
    (exponent : exponent? after = some e) :
    decimal? (whole ++ after) = some ⟨valueOf whole, e⟩ := by
  have no_point : splitFraction after = ([], after) := by
    unfold splitFraction
    split
    · have head := head_of_exponent? exponent '.' rfl
      simp at head
    · rfl
  simp [decimal?, splitDigits_append all (stop_of_exponent? exponent), no_point, full, exponent]

/-- Digits with a point between them, and perhaps an exponent. -/
theorem decimal?_fraction (full : whole ≠ []) (all : ∀ c ∈ whole, c.isDigit = true)
    (places : ∀ c ∈ fraction, c.isDigit = true) (exponent : exponent? after = some e) :
    decimal? (whole ++ '.' :: (fraction ++ after)) =
      some ⟨valueOf (whole ++ fraction), e - fraction.length⟩ := by
  have point : ∀ c ∈ ('.' :: (fraction ++ after)).head?, c.isDigit = false := by
    rintro _ ⟨⟩
    rfl
  simp [decimal?, splitDigits_append all point, splitFraction,
    splitDigits_append places (stop_of_exponent? exponent), full, exponent]

/-- An exponent with its sign. -/
def signed (e : Int) : List Char := 'e' :: (if e < 0 then '-' else '+') :: digitsOf e.natAbs

theorem exponent?_sign (negative : Prop) [Decidable negative] (full : digits ≠ [])
    (all : ∀ c ∈ digits, c.isDigit = true) :
    exponent? ('e' :: (if negative then '-' else '+') :: digits) =
      some (if negative then -(valueOf digits : Int) else valueOf digits) := by
  by_cases below : negative <;>
    simp [exponent?, splitSign, below, full, List.all_eq_true.mpr all]

theorem exponent?_signed (e : Int) : exponent? (signed e) = some e := by
  rw [signed, exponent?_sign _ (Decimal.digitsOf_ne_nil _)
    (fun _ => Decimal.isDigit_of_mem_digitsOf), Decimal.valueOf_digitsOf, Option.some.injEq]
  split <;> omega

/-- A text that begins with a digit and is read as a decimal to which `magnitude` is nearest. -/
structure Spells (text : List Char) (magnitude : Nat) : Prop where
  first : ∃ c rest, text = c :: rest ∧ c.isDigit = true
  decimal : ∃ d : Decimal, decimal? text = some d ∧ d.magnitude = magnitude

/-- A numeral that ends in an exponent, one with a sign. -/
def SignedExponent (text : List Char) : Prop :=
  ∃ front sign digits, text = front ++ 'e' :: sign :: digits ∧ 'e' ∉ front ∧
    (sign = '+' ∨ sign = '-') ∧ digits ≠ [] ∧ ∀ c ∈ digits, c.isDigit = true

theorem SignedExponent.mem {text : List Char} (ends : SignedExponent text) : 'e' ∈ text := by
  obtain ⟨front, sign, digits, rfl, -⟩ := ends
  simp

/-- A text of digits and points. -/
def Plain (text : List Char) : Prop := ∀ c ∈ text, c.isDigit = true ∨ c = '.'

theorem Plain.append {text rest : List Char} (front : Plain text) (back : Plain rest) :
    Plain (text ++ rest) := fun c member =>
  (List.mem_append.mp member).elim (front c) (back c)

theorem Plain.cons {c : Char} {text : List Char} (digit : c.isDigit = true) (plain : Plain text) :
    Plain (c :: text) :=
  List.forall_mem_cons.mpr ⟨.inl digit, plain⟩

theorem Plain.point {text : List Char} (plain : Plain text) : Plain ('.' :: text) :=
  List.forall_mem_cons.mpr ⟨.inr rfl, plain⟩

theorem Plain.no_exponent {text : List Char} (plain : Plain text) : 'e' ∉ text := fun member =>
  absurd (plain 'e' member) (by decide)

theorem exists_first (full : whole ≠ []) (all : ∀ c ∈ whole, c.isDigit = true) (rest : List Char) :
    ∃ c tail, whole ++ rest = c :: tail ∧ c.isDigit = true := by
  obtain ⟨c, tail, rfl⟩ := List.exists_cons_of_ne_nil full
  exact ⟨c, tail ++ rest, rfl, all c List.mem_cons_self⟩

theorem spells_whole (full : whole ≠ []) (all : ∀ c ∈ whole, c.isDigit = true)
    (exponent : exponent? after = some e) :
    Spells (whole ++ after) (Decimal.magnitude ⟨valueOf whole, e⟩) :=
  ⟨exists_first full all after, _, decimal?_whole full all exponent, rfl⟩

theorem spells_fraction (full : whole ≠ []) (all : ∀ c ∈ whole, c.isDigit = true)
    (places : ∀ c ∈ fraction, c.isDigit = true) (exponent : exponent? after = some e) :
    Spells (whole ++ '.' :: (fraction ++ after))
      (Decimal.magnitude ⟨valueOf (whole ++ fraction), e - fraction.length⟩) :=
  ⟨exists_first full all _, _, decimal?_fraction full all places exponent, rfl⟩

theorem exponent?_nil : exponent? [] = some 0 := rfl

end Numeral

namespace Decimal

open Numeral (Plain Spells SignedExponent signed spells_whole spells_fraction exponent?_nil
  exponent?_signed)

theorem valueOf_zeros_append (k : Nat) (digits : List Char) :
    valueOf (List.replicate k '0' ++ digits) = valueOf digits := by
  induction k with
  | zero => rfl
  | succ k ih => exact ih

theorem isDigit_of_mem_zeros {k : Nat} {c : Char} (member : c ∈ List.replicate k '0') :
    c.isDigit = true := by
  rw [List.eq_of_mem_replicate member]
  rfl

theorem take_digitsOf_ne_nil (n : Nat) {k : Nat} (pos : 0 < k) : (digitsOf n).take k ≠ [] := by
  rw [Ne, List.take_eq_nil_iff, not_or]
  exact ⟨Nat.ne_of_gt pos, digitsOf_ne_nil n⟩

theorem isDigit_of_mem_take {n k : Nat} {c : Char} (member : c ∈ (digitsOf n).take k) :
    c.isDigit = true :=
  isDigit_of_mem_digitsOf (List.mem_of_mem_take member)

theorem isDigit_of_mem_drop {n k : Nat} {c : Char} (member : c ∈ (digitsOf n).drop k) :
    c.isDigit = true :=
  isDigit_of_mem_digitsOf (List.mem_of_mem_drop member)

theorem plain_digitsOf (n : Nat) : Plain (digitsOf n) := fun _ member =>
  .inl (isDigit_of_mem_digitsOf member)

theorem plain_zeros (k : Nat) : Plain (List.replicate k '0') := fun _ member =>
  .inl (isDigit_of_mem_zeros member)

theorem plain_take (n k : Nat) : Plain ((digitsOf n).take k) := fun _ member =>
  .inl (isDigit_of_mem_take member)

theorem plain_drop (n k : Nat) : Plain ((digitsOf n).drop k) := fun _ member =>
  .inl (isDigit_of_mem_drop member)

theorem positional_negSucc (digits e : Nat) : positional ⟨digits, .negSucc e⟩ =
    if e + 1 < (digitsOf digits).length then
      (digitsOf digits).take ((digitsOf digits).length - (e + 1)) ++
        '.' :: (digitsOf digits).drop ((digitsOf digits).length - (e + 1))
    else '0' :: '.' :: List.replicate (e + 1 - (digitsOf digits).length) '0' ++ digitsOf digits :=
  rfl

/-- All places of a decimal denote that decimal. -/
theorem spells_positional (d : Decimal) : Spells d.positional d.magnitude := by
  obtain ⟨digits, exponent⟩ := d
  have all : ∀ c ∈ digitsOf digits, c.isDigit = true := fun _ => isDigit_of_mem_digitsOf
  cases exponent with
  | ofNat e =>
    have zeros : ∀ c ∈ digitsOf digits ++ List.replicate e '0', c.isDigit = true :=
      fun c member => (List.mem_append.mp member).elim (all c) isDigit_of_mem_zeros
    have full : digitsOf digits ++ List.replicate e '0' ≠ [] :=
      List.append_ne_nil_of_left_ne_nil (digitsOf_ne_nil digits) _
    have spelled := spells_whole full zeros exponent?_nil
    rw [List.append_nil, valueOf_append_zeros, valueOf_digitsOf, magnitude_zeros, Int.zero_add]
      at spelled
    exact spelled
  | negSucc e =>
    rw [positional_negSucc]
    split
    · -- The point stands between the digits.
      next fewer =>
      generalize point : (digitsOf digits).length - (e + 1) = k
      have others : ∀ c ∈ (digitsOf digits).drop k, c.isDigit = true := fun _ => isDigit_of_mem_drop
      have spelled := spells_fraction (take_digitsOf_ne_nil digits (by omega : 0 < k))
        (fun _ => isDigit_of_mem_take) others exponent?_nil
      have places : (0 : Int) - ((digitsOf digits).length - k : Nat) = .negSucc e := by omega
      rw [List.append_nil, List.take_append_drop, valueOf_digitsOf, List.length_drop, places]
        at spelled
      exact spelled
    · -- The point stands before all digits, behind a zero that counts for nothing.
      next more =>
      generalize count : e + 1 - (digitsOf digits).length = k
      have zeros : ∀ c ∈ List.replicate k '0' ++ digitsOf digits, c.isDigit = true :=
        fun c member => (List.mem_append.mp member).elim isDigit_of_mem_zeros (all c)
      have spelled := spells_fraction (List.cons_ne_nil '0' []) (by simp) zeros exponent?_nil
      have places : (0 : Int) - (k + (digitsOf digits).length : Nat) = .negSucc e := by omega
      have value : valueOf (['0'] ++ (List.replicate k '0' ++ digitsOf digits)) = digits :=
        (valueOf_zeros_append (k + 1) _).trans (valueOf_digitsOf digits)
      rw [List.append_nil, value, List.length_append, List.length_replicate, places] at spelled
      exact spelled

theorem scientific_of_one {digits : Nat} (exponent : Int) (one : (digitsOf digits).length = 1) :
    scientific ⟨digits, exponent⟩ = digitsOf digits ++ signed exponent := by
  have whole : (digitsOf digits).take 1 = digitsOf digits :=
    List.take_of_length_le (Nat.le_of_eq one)
  simp [scientific, signed, one, whole]

theorem scientific_of_more {digits : Nat} (exponent : Int) (more : (digitsOf digits).length ≠ 1) :
    scientific ⟨digits, exponent⟩ = (digitsOf digits).take 1 ++ '.' :: ((digitsOf digits).drop 1 ++
      signed (exponent + ((digitsOf digits).length - 1 : Nat))) := by
  simp [scientific, signed, more]

/-- One digit before the point, and an exponent that makes up for it, denote the decimal. -/
theorem spells_scientific (d : Decimal) : Spells d.scientific d.magnitude := by
  obtain ⟨digits, exponent⟩ := d
  by_cases one : (digitsOf digits).length = 1
  · have spelled := spells_whole (digitsOf_ne_nil digits) (fun _ => isDigit_of_mem_digitsOf)
      (exponent?_signed exponent)
    rw [valueOf_digitsOf] at spelled
    rwa [scientific_of_one exponent one]
  · have others : ∀ c ∈ (digitsOf digits).drop 1, c.isDigit = true := fun _ => isDigit_of_mem_drop
    have spelled := spells_fraction (take_digitsOf_ne_nil digits Nat.one_pos)
      (fun _ => isDigit_of_mem_take) others
      (exponent?_signed (exponent + ((digitsOf digits).length - 1 : Nat)))
    rw [List.take_append_drop, valueOf_digitsOf, List.length_drop, Int.add_sub_cancel] at spelled
    rwa [scientific_of_more exponent one]

theorem plain_positional (d : Decimal) : Plain d.positional := by
  obtain ⟨digits, exponent⟩ := d
  cases exponent with
  | ofNat e => exact (plain_digitsOf digits).append (plain_zeros e)
  | negSucc e =>
    rw [positional_negSucc]
    split
    · exact (plain_take digits _).append (plain_drop digits _).point
    · exact Plain.append (Plain.cons rfl (plain_zeros _).point) (plain_digitsOf digits)

theorem signedExponent_append {front : List Char} (plain : Plain front) (e : Int) :
    SignedExponent (front ++ signed e) := by
  refine ⟨front, _, digitsOf e.natAbs, rfl, plain.no_exponent, ?_, digitsOf_ne_nil _,
    fun _ => isDigit_of_mem_digitsOf⟩
  split
  · exact .inr rfl
  · exact .inl rfl

theorem signedExponent_scientific (d : Decimal) : SignedExponent d.scientific := by
  obtain ⟨digits, exponent⟩ := d
  by_cases one : (digitsOf digits).length = 1
  · rw [scientific_of_one exponent one]
    exact signedExponent_append (plain_digitsOf digits) _
  · rw [scientific_of_more exponent one, ← List.cons_append, ← List.append_assoc]
    exact signedExponent_append ((plain_take digits 1).append (plain_drop digits 1).point) _

end Decimal

end Scriptlet
