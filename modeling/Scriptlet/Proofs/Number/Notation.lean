import Scriptlet.Proofs.Number.Equality
import Scriptlet.Proofs.Number.Spelling

/-!
# Number text reads back

The value notation of a number is a numeral that denotes the number: what is written is the shortest
decimal, and that reads back. Only what the notation leaves out is lost, the sign of zero and the
payload of NaN (`text_reads_back`).
-/
namespace Scriptlet

namespace Number

open Numeral (Spells SignedExponent splitSign)

variable {n : Number} {text : List Char}

/-- A number without its sign. -/
def abs (n : Number) : Number := ofMagnitude false n.magnitude

theorem toList_withSign (n : Number) (text : List Char) :
    (n.withSign text).toList = if n.isNegative then '-' :: text else text := by
  rw [withSign, String.toList_ofList]

theorem splitSign_withSign (first : ∃ c rest, text = c :: rest ∧ c.isDigit = true) (n : Number) :
    splitSign (n.withSign text).toList = (n.isNegative, text) := by
  obtain ⟨c, rest, rfl, digit⟩ := first
  rw [toList_withSign]
  cases n.isNegative
  · exact splitSign_of_digit digit
  · rfl

/-- A text of the magnitude of a number denotes the number when it has the sign of the number. -/
theorem ofNumeral?_withSign (spelled : Spells text n.magnitude) :
    ofNumeral? (n.withSign text).toList = some n := by
  have sign := splitSign_withSign spelled.first n
  obtain ⟨c, rest, rfl, digit⟩ := spelled.first
  obtain ⟨d, read, nearest⟩ := spelled.decimal
  have not_inf : String.ofList ((c :: rest).map Char.toLower) ≠ "inf" :=
    word_ne_of_digit digit rfl (by decide)
  have not_infinity : String.ofList ((c :: rest).map Char.toLower) ≠ "infinity" :=
    word_ne_of_digit digit rfl (by decide)
  have not_nan : String.ofList ((c :: rest).map Char.toLower) ≠ "nan" :=
    word_ne_of_digit digit rfl (by decide)
  have same : d.toNumber n.isNegative = n := by
    rw [Decimal.toNumber, nearest, ofMagnitude_magnitude]
  simp only [ofNumeral?, sign, not_inf, not_infinity, not_nan, decide_false, Bool.or_self,
    Bool.false_eq_true, if_false, read, Option.map_some, same]

theorem isNaN_of_isFinite (finite : n.isFinite = true) : n.isNaN = false := by
  have below : n.magnitude < infiniteMagnitude := of_decide_eq_true finite
  exact decide_eq_false (by omega)

theorem isInfinite_of_isFinite (finite : n.isFinite = true) : n.isInfinite = false := by
  have below : n.magnitude < infiniteMagnitude := of_decide_eq_true finite
  exact decide_eq_false (by omega)

/-- The four kinds of numbers that are written in different ways. -/
theorem kinds (n : Number) : n.isNaN = true ∨ n.isInfinite = true ∨ n.isZero = true ∨
    n.isFinite = true ∧ n.isZero = false := by
  simp only [isNaN, isInfinite, isZero, isFinite, decide_eq_true_eq, decide_eq_false_iff_not]
  omega

theorem text_of_isNaN (undefined : n.isNaN = true) : n.text = "NaN" := by
  rw [text, if_pos undefined]

theorem text_of_isInfinite (infinite : n.isInfinite = true) :
    n.text = n.withSign "Infinity".toList := by
  have magnitude : n.magnitude = infiniteMagnitude := of_decide_eq_true infinite
  have no_nan : ¬n.isNaN = true := by simp [isNaN, magnitude]
  rw [text, if_neg no_nan, if_pos infinite]

theorem text_of_isFinite (finite : n.isFinite = true) (nonzero : n.isZero = false) :
    n.text = n.withSign (if n.needsExponent then n.shortestDecimal.scientific
      else n.shortestDecimal.positional) := by
  simp only [text, isNaN_of_isFinite finite, isInfinite_of_isFinite finite, nonzero,
    Bool.false_eq_true, if_false]
  split <;> rfl

theorem ofNumeral?_infinite (infinite : n.isInfinite = true) :
    ofNumeral? (n.withSign "Infinity".toList).toList = some n := by
  have magnitude : n.magnitude = infiniteMagnitude := of_decide_eq_true infinite
  rw [toList_withSign, ← ofMagnitude_magnitude n, magnitude,
    isNegative_ofMagnitude (by decide : infiniteMagnitude < signWeight)]
  cases n.isNegative <;> rfl

/-- A number as far as its text shows it: NaN without a payload, and zero without a sign. -/
def shown (n : Number) : Number := if n.isNaN then nan else if n.isZero then zero else n

theorem shown_of_isZero (zero : n.isZero = true) : n.shown = Number.zero := by
  have no_nan : ¬n.isNaN = true := by simp [isNaN, isZero_iff.mp zero]
  rw [shown, if_neg no_nan, if_pos zero]

theorem shown_eq_self (defined : n.isNaN = false) (nonzero : n.isZero = false) : n.shown = n := by
  simp [shown, defined, nonzero]

theorem isNaN_shown (n : Number) : n.shown.isNaN = n.isNaN := by
  cases undefined : n.isNaN with
  | true => rw [shown, if_pos undefined]; rfl
  | false =>
    cases zero : n.isZero with
    | true => rw [shown_of_isZero zero]; rfl
    | false => rw [shown_eq_self undefined zero, undefined]

theorem isZero_shown (n : Number) : n.shown.isZero = n.isZero := by
  cases zero : n.isZero with
  | true => rw [shown_of_isZero zero]; rfl
  | false =>
    cases undefined : n.isNaN with
    | true => rw [shown, if_pos undefined]; rfl
    | false => rw [shown_eq_self undefined zero, zero]

/-- Which number the value notation of a number denotes. -/
theorem ofNumeral?_text (n : Number) : ofNumeral? n.text.toList = some n.shown := by
  rcases n.kinds with undefined | infinite | zero | ⟨finite, nonzero⟩
  · rw [text_of_isNaN undefined, shown, if_pos undefined]
    rfl
  · have magnitude : n.magnitude = infiniteMagnitude := of_decide_eq_true infinite
    have no_nan : n.isNaN = false := by simp [isNaN, magnitude]
    have nonzero : n.isZero = false := by simp [isZero, magnitude, infiniteMagnitude]
    rw [text_of_isInfinite infinite, ofNumeral?_infinite infinite, shown_eq_self no_nan nonzero]
  · rw [text_of_isZero zero, shown_of_isZero zero]
    rfl
  · have spelled : Spells (if n.needsExponent then n.shortestDecimal.scientific
        else n.shortestDecimal.positional) n.magnitude := by
      rw [← magnitude_shortestDecimal finite]
      split
      · exact Decimal.spells_scientific _
      · exact Decimal.spells_positional _
    rw [text_of_isFinite finite nonzero, ofNumeral?_withSign spelled,
      shown_eq_self (isNaN_of_isFinite finite) nonzero]

/-- Numbers have one text if they are equal or both NaN. -/
theorem text_eq_iff (a b : Number) : a.text = b.text ↔
    a.equal b = true ∨ a.isNaN = true ∧ b.isNaN = true := by
  constructor
  · intro same
    have read := ofNumeral?_text a
    rw [same, ofNumeral?_text b, Option.some.injEq] at read
    have undefined : b.isNaN = a.isNaN := by rw [← isNaN_shown, read, isNaN_shown]
    have zero : b.isZero = a.isZero := by rw [← isZero_shown, read, isZero_shown]
    cases nan : a.isNaN with
    | true => exact .inr ⟨rfl, undefined.trans nan⟩
    | false =>
      refine .inl (equal_iff.mpr ⟨nan, undefined.trans nan, ?_⟩)
      cases null : a.isZero with
      | true => exact .inr ⟨rfl, zero.trans null⟩
      | false =>
        rw [shown_eq_self nan null, shown_eq_self (undefined.trans nan) (zero.trans null)] at read
        exact .inl read.symm
  · rintro (equal | ⟨left, right⟩)
    · exact text_eq_of_equal equal
    · rw [text_of_isNaN left, text_of_isNaN right]

theorem compare?_ofMagnitude {a b : Nat} (left : a ≤ infiniteMagnitude)
    (right : b ≤ infiniteMagnitude) :
    (ofMagnitude false a).compare? (ofMagnitude false b) = some (compare (a : Int) (b : Int)) := by
  have fits {m : Nat} (le : m ≤ infiniteMagnitude) : m < signWeight :=
    Nat.lt_of_le_of_lt le (by decide)
  simp [compare?, isNaN, key, magnitude_ofMagnitude (fits left), magnitude_ofMagnitude (fits right),
    isNegative_ofMagnitude (fits left), isNegative_ofMagnitude (fits right), left, right]

/-- From which number on, and below which one, numbers are written with an exponent. -/
theorem needsExponent_iff (finite : n.isFinite = true) : n.needsExponent = true ↔
    (n.abs.compare? (Decimal.toNumber false ⟨1, 21⟩)).any (·.isGE) = true ∨
      n.abs.compare? (Decimal.toNumber false ⟨1, -6⟩) = some .lt := by
  have below : n.magnitude ≤ infiniteMagnitude := Nat.le_of_lt (of_decide_eq_true finite)
  have large : largeMagnitude ≤ infiniteMagnitude := by decide +kernel
  have small : smallMagnitude ≤ infiniteMagnitude := by decide +kernel
  rw [abs, Decimal.toNumber, Decimal.toNumber, ← largeMagnitude, ← smallMagnitude,
    compare?_ofMagnitude below large, compare?_ofMagnitude below small, Option.any_some,
    Std.isGE_compare, Int.ofNat_le, Option.some.injEq, Std.compare_eq_lt, Int.ofNat_lt,
    needsExponent, Bool.or_eq_true, decide_eq_true_eq, decide_eq_true_eq]

theorem withSign_exponent_iff (n : Number) (text : List Char) :
    'e' ∈ (n.withSign text).toList ↔ 'e' ∈ text := by
  rw [toList_withSign]
  split <;> simp

theorem signedExponent_withSign (ends : SignedExponent text) (n : Number) :
    SignedExponent (n.withSign text).toList := by
  obtain ⟨front, sign, digits, rfl, no_e, explicit, full, all⟩ := ends
  rw [toList_withSign]
  split
  · exact ⟨'-' :: front, sign, digits, rfl, by simp [no_e], explicit, full, all⟩
  · exact ⟨front, sign, digits, rfl, no_e, explicit, full, all⟩

theorem exponent_text (finite : n.isFinite = true) :
    ('e' ∈ n.text.toList ↔ n.isZero = false ∧ n.needsExponent = true) ∧
      ('e' ∈ n.text.toList → SignedExponent n.text.toList) := by
  cases zero : n.isZero with
  | true =>
    have no_e : 'e' ∉ n.text.toList := by
      rw [text_of_isZero zero]
      decide
    exact ⟨by simp [no_e], fun member => absurd member no_e⟩
  | false =>
    rw [text_of_isFinite finite zero, withSign_exponent_iff]
    by_cases needed : n.needsExponent = true
    · have ends := Decimal.signedExponent_scientific n.shortestDecimal
      rw [if_pos needed]
      exact ⟨⟨fun _ => ⟨rfl, needed⟩, fun _ => ends.mem⟩, fun _ => signedExponent_withSign ends n⟩
    · have plain := (Decimal.plain_positional n.shortestDecimal).no_exponent
      rw [if_neg needed]
      exact ⟨⟨fun member => absurd member plain, fun both => absurd both.2 needed⟩,
        fun member => absurd member plain⟩

/-- **Number text reads back.** The text of a number denotes the number, but for the sign of zero
and the payload of NaN, so that numbers have one text just if they are equal or both NaN. The text
of a finite number has an exponent, and then one with a sign, just if the number is not zero and is,
without its sign, at least the number nearest to 1e21 or less than the one nearest to 1e-6. -/
theorem text_reads_back (n : Number) :
    ofNumeral? n.text.toList = some (if n.isNaN then nan else if n.isZero then zero else n) ∧
    (∀ other : Number, n.text = other.text ↔
      n.equal other = true ∨ n.isNaN = true ∧ other.isNaN = true) ∧
    (n.isFinite = true →
      ('e' ∈ n.text.toList ↔ n.isZero = false ∧
        ((n.abs.compare? (Decimal.toNumber false ⟨1, 21⟩)).any (·.isGE) = true ∨
          n.abs.compare? (Decimal.toNumber false ⟨1, -6⟩) = some .lt)) ∧
      ('e' ∈ n.text.toList → SignedExponent n.text.toList)) := by
  refine ⟨ofNumeral?_text n, text_eq_iff n, fun finite => ?_⟩
  rw [← needsExponent_iff finite]
  exact exponent_text finite

/-- The last number that is written with an exponent before 1e-6, and it is negative. -/
theorem text_reads_back_below :
    let n : Number := ⟨0xBEB0C6F7A0B5ED8C⟩
    n.isFinite = true ∧ n.text = "-9.999999999999997e-7" ∧ ofNumeral? n.text.toList = some n ∧
      SignedExponent n.text.toList := by
  intro n
  have finite : n.isFinite = true := by decide
  have text : n.text = "-9.999999999999997e-7" := by decide +kernel
  obtain ⟨reads, -, exponents⟩ := text_reads_back n
  refine ⟨finite, text, reads.trans (by decide), (exponents finite).2 ?_⟩
  rw [text]
  decide

/-- Both sides of the bounds, where the text changes its form. -/
example : [0x3EB0C6F7A0B5ED8C, 0x3EB0C6F7A0B5ED8D, 0x444B1AE4D6E2EF4F, 0x444B1AE4D6E2EF50].map
      (fun bits => (Number.mk bits).text) =
    ["9.999999999999997e-7", "0.000001", "999999999999999900000", "1e+21"] := by decide +kernel

end Number

end Scriptlet
