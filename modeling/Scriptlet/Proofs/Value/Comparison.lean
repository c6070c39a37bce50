import Mathlib.Data.String.Basic
import Scriptlet.Eval.Operation

/-!
# Order and equality of values

Programs compare values in two ways that have nothing to do with each other: equality is decided on
all values, order on two texts and on two numbers that are not NaN. Where there is an order,
equality fits into it, and exactly one of "less", "equal" and "greater" holds. Everywhere else no
value is less or greater than another (`comparisons_consistent`).
-/
namespace Scriptlet

namespace Number

variable {a b : Number}

theorem compare?_eq_some_iff {order : Ordering} : a.compare? b = some order ↔
    a.isNaN = false ∧ b.isNaN = false ∧ compare a.key b.key = order := by
  simp [compare?, and_assoc]

/-- The numbers that are equal are those whose order is that of equal numbers. -/
theorem equal_iff_compare? : a.equal b = true ↔ a.compare? b = some .eq := by
  rw [compare?_eq_some_iff, Std.compare_eq_iff_eq]
  simp [equal, and_assoc]

end Number

namespace Value

/-- Two texts, or two numbers of any size, NaN included. -/
inductive OfOneKind : Value → Value → Prop
  | numbers {m n} : OfOneKind (.number m) (.number n)
  | texts {s t} : OfOneKind (.text s) (.text t)

/-- Two texts, or two numbers other than NaN. -/
inductive Ranked : Value → Value → Prop
  | numbers {m n} (left : m.isNaN = false) (right : n.isNaN = false) :
      Ranked (.number m) (.number n)
  | texts {s t} : Ranked (.text s) (.text t)

def IsNaN (v : Value) : Prop := ∃ n, v = .number n ∧ n.isNaN = true

variable {a b c : Value} {order : Ordering}

/-- What it takes that two values have an order. -/
theorem compare?_eq_some_iff : a.compare? b = some order ↔
    (∃ m n, a = .number m ∧ b = .number n ∧ m.isNaN = false ∧ n.isNaN = false ∧
        compare m.key n.key = order) ∨
      ∃ s t, a = .text s ∧ b = .text t ∧ compare s t = order := by
  constructor
  · intro ordered
    unfold compare? at ordered
    split at ordered
    · next m n => exact .inl ⟨m, n, rfl, rfl, Number.compare?_eq_some_iff.mp ordered⟩
    · next s t => exact .inr ⟨s, t, rfl, rfl, Option.some.inj ordered⟩
    · cases ordered
  · rintro (⟨m, n, rfl, rfl, ordered⟩ | ⟨s, t, rfl, rfl, rfl⟩)
    · exact Number.compare?_eq_some_iff.mpr ordered
    · rfl

theorem Ranked.exists_order (ranked : Ranked a b) : ∃ order, a.compare? b = some order := by
  cases ranked with
  | numbers left right =>
    exact ⟨_, compare?_eq_some_iff.mpr (.inl ⟨_, _, rfl, rfl, left, right, rfl⟩)⟩
  | texts => exact ⟨_, rfl⟩

theorem compare?_eq_none (apart : ¬Ranked a b) : a.compare? b = none := by
  rw [Option.eq_none_iff_forall_ne_some]
  intro order ordered
  rcases compare?_eq_some_iff.mp ordered with ⟨m, n, rfl, rfl, left, right, -⟩ | ⟨s, t, rfl, rfl, -⟩
  · exact apart (.numbers left right)
  · exact apart .texts

theorem not_ranked (apart : a.typeName ≠ b.typeName ∨ a.IsNaN ∨ b.IsNaN ∨
    a.typeName ≠ "number" ∧ a.typeName ≠ "string") : ¬Ranked a b := by
  rintro (⟨left, right⟩ | _)
  · rcases apart with types | ⟨n, ⟨⟩, undefined⟩ | ⟨n, ⟨⟩, undefined⟩ | ⟨other, -⟩
    · exact types rfl
    · simp [undefined] at left
    · simp [undefined] at right
    · exact other rfl
  · rcases apart with types | ⟨n, ⟨⟩, -⟩ | ⟨n, ⟨⟩, -⟩ | ⟨-, other⟩
    · exact types rfl
    · exact other rfl

/-- Seen from the other side an order is the opposite one. -/
theorem compare?_swap (a b : Value) : b.compare? a = (a.compare? b).map Ordering.swap := by
  cases a with
  | number m =>
    cases b with
    | number n =>
      simp only [compare?, Number.compare?, Bool.or_comm n.isNaN]
      split
      · rfl
      · exact congrArg some Std.OrientedCmp.eq_swap
    | _ => rfl
  | text s =>
    cases b with
    | text t => exact congrArg some Std.OrientedCmp.eq_swap
    | _ => rfl
  | _ => cases b <;> rfl

/-- Where there is an order, equality is part of it. -/
theorem strictEqual_iff_compare? (kind : OfOneKind a b) :
    a.strictEqual b = true ↔ a.compare? b = some .eq := by
  cases kind with
  | numbers => exact Number.equal_iff_compare?
  | texts => simp [strictEqual, compare?]

theorem ofOneKind_of_compare? (ordered : a.compare? b = some order) : OfOneKind a b := by
  rcases compare?_eq_some_iff.mp ordered with ⟨m, n, rfl, rfl, -⟩ | ⟨s, t, rfl, rfl, -⟩
  · exact .numbers
  · exact .texts

/-- Orders of neighbours are composed as in any order. -/
theorem compare?_trans {P : Ordering → Prop}
    (keys : ∀ {x y z : Int}, P (compare x y) → P (compare y z) → P (compare x z))
    (words : ∀ {x y z : String}, P (compare x y) → P (compare y z) → P (compare x z))
    (first : ∃ order, a.compare? b = some order ∧ P order)
    (second : ∃ order, b.compare? c = some order ∧ P order) :
    ∃ order, a.compare? c = some order ∧ P order := by
  obtain ⟨order, ordered, left⟩ := first
  obtain ⟨order', ordered', right⟩ := second
  rcases compare?_eq_some_iff.mp ordered with
    ⟨m, n, rfl, rfl, numeric, -, rfl⟩ | ⟨s, t, rfl, rfl, rfl⟩
  · rcases compare?_eq_some_iff.mp ordered' with ⟨_, o, ⟨⟩, rfl, -, numeric', rfl⟩ | ⟨_, _, ⟨⟩, -⟩
    exact ⟨_, compare?_eq_some_iff.mpr (.inl ⟨m, o, rfl, rfl, numeric, numeric', rfl⟩),
      keys left right⟩
  · rcases compare?_eq_some_iff.mp ordered' with ⟨_, _, ⟨⟩, -⟩ | ⟨_, u, ⟨⟩, rfl, rfl⟩
    exact ⟨_, rfl, words left right⟩

end Value

namespace Comparison

open Value

variable {a b c : Value}

theorem less_iff : less.holds a b = true ↔ a.compare? b = some .lt := decide_eq_true_iff

theorem greater_iff : greater.holds a b = true ↔ a.compare? b = some .gt := decide_eq_true_iff

theorem lessEqual_iff :
    lessEqual.holds a b = true ↔ ∃ order, a.compare? b = some order ∧ order.isLE = true := by
  cases ordered : a.compare? b with
  | none => simp [holds, ordered]
  | some order => cases order <;> simp [holds, ordered]

/-- Smaller texts have the smaller code point where they first differ, or end there. -/
theorem less_texts_iff (s t : String) : less.holds (.text s) (.text t) = true ↔
    List.Lex (· < ·) (s.toList.map Char.toNat) (t.toList.map Char.toNat) := by
  rw [less_iff]
  change some (compare s t) = some .lt ↔ _
  rw [Option.some.injEq, compare_lt_iff_lt, String.lt_iff_toList_lt, ← List.lex_lt]
  generalize s.toList = cs
  generalize t.toList = ds
  induction cs generalizing ds with
  | nil => cases ds <;> simp
  | cons c cs ih =>
    cases ds with
    | nil => simp
    | cons d ds =>
      rw [List.map_cons, List.map_cons, List.cons_lex_cons_iff, List.cons_lex_cons_iff,
        Char.toNat_inj, ih]
      exact Iff.rfl

/-- What programs find out by comparing some values fits together. -/
structure Consistent (a b c : Value) : Prop where
  converse : less.holds a b = greater.holds b a
  less_or_equal : lessEqual.holds a b = true ↔
    less.holds a b = true ∨ equal.holds a b = true ∧ OfOneKind a b
  converse_or_equal : greaterEqual.holds a b = lessEqual.holds b a
  negation : notEqual.holds a b = !equal.holds a b
  at_most_one : [less, equal, greater].countP (·.holds a b) ≤ 1
  exactly_one : Ranked a b → [less, equal, greater].countP (·.holds a b) = 1
  less_trans : less.holds a b = true → less.holds b c = true → less.holds a c = true
  lessEqual_trans :
    lessEqual.holds a b = true → lessEqual.holds b c = true → lessEqual.holds a c = true
  /-- Values of two types have no order, NaN has none, and values that are neither numbers nor
  texts have none. -/
  unordered : a.typeName ≠ b.typeName ∨ a.IsNaN ∨ b.IsNaN ∨
      a.typeName ≠ "number" ∧ a.typeName ≠ "string" →
    ∀ op ∈ [less, greater, lessEqual, greaterEqual], op.holds a b = false

theorem converse (a b : Value) : less.holds a b = greater.holds b a := by
  rw [Bool.eq_iff_iff, less_iff, greater_iff, compare?_swap a b]
  cases a.compare? b with
  | none => simp
  | some order => cases order <;> simp

theorem lessEqual_split : lessEqual.holds a b = true ↔
    less.holds a b = true ∨ equal.holds a b = true ∧ OfOneKind a b := by
  simp only [holds, Bool.or_eq_true, decide_eq_true_eq]
  refine or_congr_right ⟨?_, ?_⟩
  · intro same
    have kind := ofOneKind_of_compare? same
    exact ⟨(strictEqual_iff_compare? kind).mpr same, kind⟩
  · rintro ⟨same, kind⟩
    exact (strictEqual_iff_compare? kind).mp same

theorem greaterEqual_converse (a b : Value) : greaterEqual.holds a b = lessEqual.holds b a := by
  simp only [holds, compare?_swap a b]
  cases a.compare? b with
  | none => rfl
  | some order => cases order <;> rfl

/-- Where values have an order, one of the three holds. -/
theorem count_of_ranked (ranked : Ranked a b) :
    [less, equal, greater].countP (·.holds a b) = 1 := by
  obtain ⟨order, ordered⟩ := ranked.exists_order
  have same : equal.holds a b = decide (order = .eq) := by
    rw [Bool.eq_iff_iff, decide_eq_true_eq, holds,
      strictEqual_iff_compare? (ofOneKind_of_compare? ordered), ordered, Option.some.injEq]
  simp only [List.countP_cons, List.countP_nil, same]
  cases order <;> simp [holds, ordered]

/-- Where they have none, at most equality holds. -/
theorem unordered (apart : ¬Ranked a b) :
    ∀ op ∈ [less, greater, lessEqual, greaterEqual], op.holds a b = false := by
  simp [holds, compare?_eq_none apart]

theorem count_le_one (a b : Value) : [less, equal, greater].countP (·.holds a b) ≤ 1 := by
  by_cases ranked : Ranked a b
  · exact Nat.le_of_eq (count_of_ranked ranked)
  · have none := unordered ranked
    simp only [List.forall_mem_cons] at none
    simp only [List.countP_cons, List.countP_nil, none.1, none.2.1, Bool.false_eq_true, if_false]
    split <;> decide

/-- **Comparisons fit together.** Order and its converse, equality and its negation, and the orders
that include equality say the same of any two values. Order is transitive, at most one of "less",
"equal" and "greater" holds, and exactly one if two texts are compared, or two numbers other than
NaN. Nothing else has an order, and that of texts is the lexicographic one of their code points. -/
theorem comparisons_consistent (a b c : Value) : Consistent a b c ∧
    ∀ s t : String, less.holds (.text s) (.text t) = true ↔
      List.Lex (· < ·) (s.toList.map Char.toNat) (t.toList.map Char.toNat) where
  left := {
    converse := converse a b
    less_or_equal := lessEqual_split
    converse_or_equal := greaterEqual_converse a b
    negation := rfl
    at_most_one := count_le_one a b
    exactly_one := count_of_ranked
    less_trans := by
      intro first second
      rw [less_iff] at first second ⊢
      obtain ⟨_, ordered, rfl⟩ := compare?_trans (P := (· = .lt)) Std.TransCmp.lt_trans
        Std.TransCmp.lt_trans ⟨_, first, rfl⟩ ⟨_, second, rfl⟩
      exact ordered
    lessEqual_trans := by
      intro first second
      rw [lessEqual_iff] at first second ⊢
      exact compare?_trans Std.TransCmp.isLE_trans Std.TransCmp.isLE_trans first second
    unordered := fun apart => unordered (not_ranked apart) }
  right := less_texts_iff

/-- NaN and the zeros: where equality and order could fall apart. -/
example : [less, equal, greater, lessEqual].map (·.holds (.number .nan) (.number .nan)) =
      [false, false, false, false] ∧
    [less, equal, greater, lessEqual].map (·.holds (.number .zero) (.number Number.zero.neg)) =
      [false, true, false, true] := by decide

end Comparison

end Scriptlet
