import Scriptlet.Proofs.Number.Equality
import Scriptlet.Proofs.Value.Resemblance

/-!
# Equality of values

Two equalities are defined on values. The strict one goes by identity where there is one; the other
one compares objects entry by entry as well, and stops where it meets one identity twice. Both are
symmetric and transitive, and what is equal looks the same (`equality_lawful`). Neither is reflexive:
NaN equals nothing. An object that contains it equals itself by its identity, but no copy of it.
-/
namespace Scriptlet

namespace Value

/-- A value is found in another one, which it is or of which some entry leads to it. -/
inductive FoundIn (part : Value) : Value → Prop
  | self : FoundIn part part
  | entry {id entries key value} (member : (key, value) ∈ entries) (inside : FoundIn part value) :
      FoundIn part (.object id entries)

/-- Two objects, functions or native functions of one identity. -/
inductive SharesIdentity : Value → Value → Prop
  | object {id entries others} : SharesIdentity (.object id entries) (.object id others)
  | function {id closure other} : SharesIdentity (.function id closure) (.function id other)
  | native {id name other} : SharesIdentity (.native id name) (.native id other)

/-- In some values, what has one identity has one content. -/
def Coherent (values : List Value) : Prop :=
  ∀ v ∈ values, ∀ w ∈ values, ∀ x y, FoundIn x v → FoundIn y w → SharesIdentity x y → x = y

mutual

/-- A copy with the same content, in objects of other identities throughout. -/
inductive Rebuilt : Value → Value → Prop
  | object {id other entries copies} (apart : other ≠ id) (each : RebuiltEntries entries copies) :
      Rebuilt (.object id entries) (.object other copies)
  | plain {v} (no_object : ∀ id entries, v ≠ .object id entries) : Rebuilt v v

inductive RebuiltEntries : Entries → Entries → Prop
  | nil : RebuiltEntries [] []
  | cons {key v w entries copies} (first : Rebuilt v w) (rest : RebuiltEntries entries copies) :
      RebuiltEntries ((key, v) :: entries) ((key, w) :: copies)

end

variable {a b c v w : Value} {entries others more : Entries}

/-! What is found in values. -/

theorem FoundIn.of_entry {id : Identity} {key : String} (member : (key, v) ∈ entries) :
    FoundIn v (.object id entries) :=
  .entry member .self

theorem FoundIn.trans (inside : FoundIn a b) (outside : FoundIn b c) : FoundIn a c := by
  induction outside with
  | self => exact inside
  | entry member _ ih => exact .entry member ih

/-- What is found in coherent values is coherent. -/
theorem Coherent.parts {values parts : List Value} (coherent : Coherent values)
    (found : ∀ v ∈ parts, ∃ w ∈ values, FoundIn v w) : Coherent parts := by
  intro v member w member' x y inside inside' shares
  obtain ⟨outer, listed, outside⟩ := found v member
  obtain ⟨outer', listed', outside'⟩ := found w member'
  exact coherent outer listed outer' listed' x y (inside.trans outside) (inside'.trans outside')
    shares

theorem Coherent.eq_of_shares {values : List Value} (coherent : Coherent values)
    (left : a ∈ values) (right : b ∈ values) (shares : SharesIdentity a b) : a = b :=
  coherent a left b right a b .self .self shares

theorem Coherent.entries_eq {values : List Value} (coherent : Coherent values) (id : Identity)
    (left : object id entries ∈ values) (right : object id others ∈ values) : entries = others :=
  (object.inj (coherent.eq_of_shares left right .object)).2

/-! Strict equality. -/

theorem strictEqual_comm (a b : Value) : a.strictEqual b = b.strictEqual a := by
  cases a <;> cases b <;> simp only [strictEqual, Number.equal_comm, eq_comm]

/-- Strictly equal values are equal numbers, the same value, or of one identity. -/
theorem strictEqual_cases (equal : a.strictEqual b = true) :
    (∃ m n, a = .number m ∧ b = .number n ∧ m.equal n = true) ∨ a = b ∨ SharesIdentity a b := by
  cases a with
  | number m =>
    cases b with
    | number n => exact .inl ⟨m, n, rfl, rfl, equal⟩
    | _ => cases equal
  | text | boolean =>
    cases b <;> first
      | cases equal
      | exact .inr (.inl (congrArg _ (of_decide_eq_true equal)))
  | null =>
    cases b with
    | null => exact .inr (.inl rfl)
    | _ => cases equal
  | object =>
    cases b with
    | object =>
      obtain rfl := of_decide_eq_true equal
      exact .inr (.inr .object)
    | _ => cases equal
  | function =>
    cases b with
    | function =>
      obtain rfl := of_decide_eq_true equal
      exact .inr (.inr .function)
    | _ => cases equal
  | native =>
    cases b with
    | native =>
      obtain rfl := of_decide_eq_true equal
      exact .inr (.inr .native)
    | _ => cases equal

/-- Strict equality does not look behind an identity. -/
theorem SharesIdentity.strictEqual_eq (shares : SharesIdentity a b) (c : Value) :
    a.strictEqual c = b.strictEqual c := by
  cases shares <;> cases c <;> rfl

theorem strictEqual_trans (first : a.strictEqual b = true) (second : b.strictEqual c = true) :
    a.strictEqual c = true := by
  rcases strictEqual_cases first with ⟨m, n, rfl, rfl, equal⟩ | rfl | shares
  · cases c with
    | number => exact Number.equal_trans equal second
    | _ => cases second
  · exact second
  · rw [shares.strictEqual_eq]
    exact second

theorem strictEqual_self_iff :
    a.strictEqual a = true ↔ ∀ n, a = .number n → n.isNaN = false := by
  cases a with
  | number n =>
    refine (Number.equal_self_iff n).trans ⟨?_, fun all => all n rfl⟩
    rintro plain _ ⟨⟩
    exact plain
  | _ => simp [strictEqual]

/-! Equality of content. -/

/-- Only two objects are compared by their entries. -/
theorem alike_of_not_object (no_object : ∀ id entries, a ≠ .object id entries) (b : Value) :
    a.alike b = a.strictEqual b ∧ b.alike a = b.strictEqual a := by
  cases a with
  | object id entries => exact absurd rfl (no_object id entries)
  | _ => cases b <;> exact ⟨rfl, rfl⟩

theorem alike_object_iff {i j : Identity} :
    (object i entries).alike (.object j others) = true ↔
      i = j ∨ alikeEntries entries others = true := by
  simp [alike]

theorem alikeEntries_cons_iff {k l : String} :
    alikeEntries ((k, v) :: entries) ((l, w) :: others) = true ↔
      k = l ∧ v.alike w = true ∧ alikeEntries entries others = true := by
  simp [alikeEntries, and_assoc]

theorem alike_of_strictEqual (equal : a.strictEqual b = true) : a.alike b = true := by
  cases a with
  | object i entries =>
    cases b with
    | object j others => exact alike_object_iff.mpr (.inl (of_decide_eq_true equal))
    | _ => cases equal
  | _ => cases b <;> exact equal

/-- Induction on entries that are equal one by one. -/
@[elab_as_elim]
theorem alikeEntries_induction
    {P : (entries others : Entries) → alikeEntries entries others = true → Prop}
    (nil : P [] [] rfl)
    (cons : ∀ key v w entries others (whole : alikeEntries ((key, v) :: entries)
      ((key, w) :: others) = true) (later : alikeEntries entries others = true),
      v.alike w = true → P entries others later → P _ _ whole)
    (entries others : Entries) (equal : alikeEntries entries others = true) :
    P entries others equal := by
  induction entries generalizing others with
  | nil =>
    cases others with
    | nil => exact nil
    | cons => cases equal
  | cons entry entries ih =>
    obtain ⟨key, v⟩ := entry
    cases others with
    | nil => cases equal
    | cons other others =>
      obtain ⟨key', w⟩ := other
      obtain ⟨rfl, first, later⟩ := alikeEntries_cons_iff.mp equal
      exact cons key v w entries others equal later first (ih others later)

theorem alikeEntries_symm
    (each : ∀ entry ∈ entries, ∀ w, entry.2.alike w = true → w.alike entry.2 = true)
    (equal : alikeEntries entries others = true) : alikeEntries others entries = true := by
  induction entries, others, equal using alikeEntries_induction with
  | nil => rfl
  | cons key v w entries others _ _ first ih =>
    rw [List.forall_mem_cons] at each
    exact alikeEntries_cons_iff.mpr ⟨rfl, each.1 w first, ih each.2⟩

theorem alike_symm (a : Value) : ∀ b, a.alike b = true → b.alike a = true := by
  induction a using nesting with
  | plain a no_object =>
    intro b equal
    obtain ⟨left, right⟩ := alike_of_not_object no_object b
    rw [right, strictEqual_comm, ← left]
    exact equal
  | object i entries ih =>
    intro b equal
    cases b with
    | object j others =>
      rw [alike_object_iff] at equal ⊢
      exact equal.imp Eq.symm (alikeEntries_symm ih)
    | _ => cases equal

/-- Equal values are two objects, equal numbers, the same value, or of one identity. -/
theorem alike_cases (equal : a.alike b = true) :
    (∃ i entries j others, a = .object i entries ∧ b = .object j others) ∨
      (∃ m n, a = .number m ∧ b = .number n ∧ m.equal n = true) ∨ a = b ∨ SharesIdentity a b := by
  cases a with
  | object i entries =>
    cases b with
    | object j others => exact .inl ⟨i, entries, j, others, rfl, rfl⟩
    | _ => cases equal
  | _ => exact .inr (strictEqual_cases (by cases b <;> exact equal))

/-- Objects equal themselves by their identity, whatever they contain. -/
theorem alike_self (a : Value) : a.alike a = a.strictEqual a := by
  cases a with
  | object => simp [alike, strictEqual]
  | _ => rfl

theorem alikeEntries_trans
    (each : ∀ x ∈ entries, ∀ y ∈ others, ∀ z ∈ more, x.2.alike y.2 = true → y.2.alike z.2 = true →
      x.2.alike z.2 = true)
    (left : alikeEntries entries others = true) (right : alikeEntries others more = true) :
    alikeEntries entries more = true := by
  induction entries, others, left using alikeEntries_induction generalizing more with
  | nil => exact right
  | cons key v w entries others _ _ first ih =>
    cases more with
    | nil => cases right
    | cons z more =>
      obtain ⟨keys, second, later⟩ := alikeEntries_cons_iff.mp right
      refine alikeEntries_cons_iff.mpr ⟨keys, ?_, ih (fun x left y middle z right => ?_) later⟩
      · exact each _ List.mem_cons_self _ List.mem_cons_self z List.mem_cons_self first second
      · exact each x (List.mem_cons_of_mem _ left) y (List.mem_cons_of_mem _ middle) z
          (List.mem_cons_of_mem _ right)

/-- Where one identity comes with one content, steps by identity and steps by content go together. -/
theorem alike_trans (a : Value) : ∀ b c, Coherent [a, b, c] → a.alike b = true → b.alike c = true →
    a.alike c = true := by
  induction a using nesting with
  | plain a no_object =>
    intro b c _ first second
    rw [(alike_of_not_object no_object b).1] at first
    rw [(alike_of_not_object no_object c).1]
    have no_object' : ∀ id entries, b ≠ .object id entries := by
      rintro id entries rfl
      cases a with
      | object i others => exact no_object i others rfl
      | _ => cases first
    rw [(alike_of_not_object no_object' c).1] at second
    exact strictEqual_trans first second
  | object i entries ih =>
    intro b c coherent first second
    cases b with
    | object j others =>
      cases c with
      | object k more =>
        rw [alike_object_iff] at first second ⊢
        rcases first with rfl | first
        · have same : entries = others := coherent.entries_eq i (by simp) (by simp)
          exact same ▸ second
        rcases second with rfl | second
        · have same : others = more := coherent.entries_eq j (by simp) (by simp)
          exact .inr (same ▸ first)
        refine .inr (alikeEntries_trans (fun x left y middle z right => ?_) first second)
        refine ih x left y.2 z.2 (coherent.parts ?_)
        simp only [List.forall_mem_cons]
        exact ⟨⟨.object i entries, by simp, .of_entry left⟩,
          ⟨.object j others, by simp, .of_entry middle⟩,
          ⟨.object k more, by simp, .of_entry right⟩, List.forall_mem_nil _⟩
      | _ => cases second
    | _ => cases first

/-! Copies. -/

theorem foundIn_plain_iff (no_object : ∀ id entries, v ≠ .object id entries) :
    FoundIn w v ↔ w = v := by
  constructor
  · rintro (_ | _)
    · rfl
    · exact absurd rfl (no_object _ _)
  · rintro rfl
    exact .self

theorem foundIn_object_iff {id : Identity} :
    FoundIn w (.object id entries) ↔ w = .object id entries ∨ ∃ entry ∈ entries, FoundIn w entry.2 := by
  constructor
  · rintro (_ | ⟨member, inside⟩)
    · exact .inl rfl
    · exact .inr ⟨_, member, inside⟩
  · rintro (rfl | ⟨entry, member, inside⟩)
    · exact .self
    · exact .entry member inside

mutual

/-- A copy that shares no object with the original equals it unless there is a NaN in it. -/
theorem Rebuilt.alike_iff : ∀ {v w : Value}, Rebuilt v w →
    (v.alike w = true ↔ ∀ n, FoundIn (.number n) v → n.isNaN = false)
  | _, _, .object apart each => by
    rw [alike_object_iff, or_iff_right apart.symm, each.alikeEntries_iff]
    constructor
    · rintro all n (_ | ⟨member, inside⟩)
      exact all _ member n inside
    · exact fun all entry member n inside => all n (.entry member inside)
  | v, _, .plain no_object => by
    rw [alike_self, strictEqual_self_iff]
    simp only [foundIn_plain_iff no_object, eq_comm]

theorem RebuiltEntries.alikeEntries_iff : ∀ {entries copies : Entries},
    RebuiltEntries entries copies → (alikeEntries entries copies = true ↔
      ∀ entry ∈ entries, ∀ n, FoundIn (.number n) entry.2 → n.isNaN = false)
  | _, _, .nil => by simp [alikeEntries]
  | _, _, .cons first rest => by
    rw [alikeEntries_cons_iff, first.alike_iff, rest.alikeEntries_iff, List.forall_mem_cons]
    simp

end

/-- NaN equals nothing. -/
theorem not_alike_of_nan {n : Number} (nan : n.isNaN = true) : (number n).alike v = false := by
  rw [Bool.eq_false_iff]
  intro equal
  obtain ⟨m, rfl, same⟩ : ∃ m, v = .number m ∧ n.equal m = true := by
    cases v with
    | number m => exact ⟨m, rfl, equal⟩
    | _ => cases equal
  rw [(Number.equal_iff.mp same).1] at nan
  cases nan

/-- An object with a NaN right in it equals no other object. -/
theorem not_alikeEntries_of_nan {entry : String × Value} {n : Number} (nan : n.isNaN = true)
    (member : entry ∈ entries) (value : entry.2 = .number n) :
    alikeEntries entries others = false := by
  rw [Bool.eq_false_iff]
  intro equal
  induction entries, others, equal using alikeEntries_induction with
  | nil => cases member
  | cons key v w entries others _ _ first ih =>
    cases member with
    | head =>
      obtain rfl : v = .number n := value
      rw [not_alike_of_nan nan] at first
      cases first
    | tail _ member => exact ih member

/-! What is equal looks the same. -/

theorem isTruthy_eq_of_alike (equal : a.alike b = true) : a.isTruthy = b.isTruthy := by
  rcases alike_cases equal with ⟨_, _, _, _, rfl, rfl⟩ | ⟨m, n, rfl, rfl, same⟩ | rfl | shares
  · rfl
  · obtain ⟨left, right, -⟩ := Number.equal_iff.mp same
    rw [isTruthy, isTruthy, left, right, Number.isZero_eq_of_equal same]
  · rfl
  · cases shares <;> rfl

theorem typeName_eq_of_alike (equal : a.alike b = true) : a.typeName = b.typeName := by
  rcases alike_cases equal with ⟨_, _, _, _, rfl, rfl⟩ | ⟨m, n, rfl, rfl, -⟩ | rfl | shares
  · rfl
  · rfl
  · rfl
  · cases shares <;> rfl

/-- Quotes stand around equal values alike. -/
theorem nestedText_eq_of_alike (equal : a.alike b = true) (plain : String) :
    a.nestedText plain = b.nestedText plain := by
  rcases alike_cases equal with ⟨_, _, _, _, rfl, rfl⟩ | ⟨m, n, rfl, rfl, -⟩ | rfl | shares
  · rfl
  · rfl
  · rfl
  · cases shares <;> rfl

theorem renderEntries_eq_of_alike
    (each : ∀ x ∈ entries, ∀ y ∈ others, x.2.alike y.2 = true → x.2.render = y.2.render)
    (equal : alikeEntries entries others = true) :
    renderEntries entries = renderEntries others := by
  induction entries, others, equal using alikeEntries_induction with
  | nil => rfl
  | cons key v w entries others _ _ first ih =>
    have texts : v.render = w.render := each _ List.mem_cons_self _ List.mem_cons_self first
    have rest : renderEntries entries = renderEntries others :=
      ih fun x left y right =>
        each x (List.mem_cons_of_mem _ left) y (List.mem_cons_of_mem _ right)
    rw [renderEntries_cons, renderEntries_cons, texts, nestedText_eq_of_alike first, rest]

theorem isEmpty_eq_of_alike (equal : alikeEntries entries others = true) :
    entries.isEmpty = others.isEmpty := by
  induction entries, others, equal using alikeEntries_induction with
  | nil | cons => rfl

theorem render_eq_of_alike (a : Value) : ∀ b, Coherent [a, b] → a.alike b = true →
    a.render = b.render := by
  induction a using nesting with
  | plain a no_object =>
    intro b coherent equal
    rw [(alike_of_not_object no_object b).1] at equal
    rcases strictEqual_cases equal with ⟨m, n, rfl, rfl, same⟩ | same | shares
    · exact Number.text_eq_of_equal same
    · rw [same]
    · rw [coherent.eq_of_shares (by simp) (by simp) shares]
  | object i entries ih =>
    intro b coherent equal
    cases b with
    | object j others =>
      rcases alike_object_iff.mp equal with rfl | equal
      · have same : entries = others := coherent.entries_eq i (by simp) (by simp)
        rw [same]
      have texts : renderEntries entries = renderEntries others := by
        refine renderEntries_eq_of_alike (fun x left y right => ih x left y.2 ?_) equal
        refine coherent.parts ?_
        simp only [List.forall_mem_cons]
        exact ⟨⟨.object i entries, by simp, .of_entry left⟩,
          ⟨.object j others, by simp, .of_entry right⟩, List.forall_mem_nil _⟩
      rw [render_object, render_object, isEmpty_eq_of_alike equal, texts]
    | _ => cases equal

/-- **Both equalities are well behaved.** They are symmetric and transitive, and values that are
strictly equal are equal. Numbers are compared as doubles are: NaN equals nothing, and the zeros are
equal. All values but NaN equal themselves in both senses; a copy without a shared object equals its
original just if there is no NaN in it, however deep. Equal values have the same text, truth and
type. What has one identity has one content, as it is in every run. -/
theorem equality_lawful (a b c : Value) (coherent : Coherent [a, b, c]) :
    (a.strictEqual b = b.strictEqual a ∧ a.alike b = b.alike a) ∧
    (a.strictEqual b = true → b.strictEqual c = true → a.strictEqual c = true) ∧
    (a.alike b = true → b.alike c = true → a.alike c = true) ∧
    (a.strictEqual b = true → a.alike b = true) ∧
    (∀ m n, ((number m).strictEqual (.number n) = true ↔
        m.isNaN = false ∧ n.isNaN = false ∧ (m = n ∨ m.isZero = true ∧ n.isZero = true)) ∧
      (number m).alike (.number n) = (number m).strictEqual (.number n)) ∧
    ((a.strictEqual a = true ↔ ∀ n, a = .number n → n.isNaN = false) ∧
      (a.alike a = true ↔ ∀ n, a = .number n → n.isNaN = false)) ∧
    (∀ id entries, a = .object id entries →
      (∃ entry ∈ entries, ∃ n, entry.2 = .number n ∧ n.isNaN = true) →
        ∀ other others, other ≠ id → a.alike (.object other others) = false) ∧
    (∀ copy, Rebuilt a copy →
      (a.alike copy = true ↔ ∀ n, FoundIn (.number n) a → n.isNaN = false)) ∧
    (a.alike b = true →
      a.render = b.render ∧ a.isTruthy = b.isTruthy ∧ a.typeName = b.typeName) := by
  have symm : a.alike b = b.alike a := Bool.eq_iff_iff.mpr ⟨alike_symm a b, alike_symm b a⟩
  have both : Coherent [a, b] := by
    refine coherent.parts fun v member => ⟨v, ?_, .self⟩
    simp only [List.mem_cons, List.not_mem_nil, or_false] at member ⊢
    exact member.imp_right .inl
  refine ⟨⟨strictEqual_comm a b, symm⟩, strictEqual_trans, alike_trans a b c coherent,
    alike_of_strictEqual, fun m n => ⟨Number.equal_iff, rfl⟩, ⟨strictEqual_self_iff, ?_⟩, ?_,
    fun copy rebuilt => rebuilt.alike_iff, fun equal => ?_⟩
  · rw [alike_self]
    exact strictEqual_self_iff
  · rintro id entries rfl ⟨entry, member, n, value, nan⟩ other others apart
    rw [alike, not_alikeEntries_of_nan nan member value, Bool.or_false]
    exact decide_eq_false apart.symm
  · exact ⟨render_eq_of_alike a b both equal, isTruthy_eq_of_alike equal, typeName_eq_of_alike equal⟩

/-- Two objects share one that contains a NaN, and differ in the sign of a zero. They are equal and
have one text. A third object has a NaN of its own in the place of the shared one. -/
theorem equality_lawful_shared :
    let nan := Value.object 1 [("x", .number .nan)]
    let a := Value.object 2 [("s", nan), ("z", .number .zero)]
    let b := Value.object 3 [("s", nan), ("z", .number (.neg .zero))]
    let c := Value.object 4 [("s", .object 5 [("x", .number .nan)]), ("z", .number .zero)]
    Coherent [a, b, c] ∧ a.alike b = true ∧ a.render = b.render ∧
      b.render = "\x7b s: \x7b x: NaN \x7d, z: 0 \x7d" ∧ a.alike c = false := by
  intro nan a b c
  have parts : ∀ v ∈ [a, b, c], ∀ x, FoundIn x v →
      x ∈ [nan, a, b, c, .object 5 [("x", .number .nan)]] ∨ ∃ n, x = .number n := by
    intro v member x inside
    simp only [List.mem_cons, List.not_mem_nil, or_false] at member
    rcases member with rfl | rfl | rfl <;>
      simp [a, b, c, nan, foundIn_object_iff, foundIn_plain_iff] at inside ⊢ <;> grind
  have coherent : Coherent [a, b, c] := by
    intro v member w member' x y inside inside' shares
    rcases parts v member x inside with left | ⟨n, rfl⟩
    · rcases parts w member' y inside' with right | ⟨n, rfl⟩
      · simp only [List.mem_cons, List.not_mem_nil, or_false] at left right
        rcases left with rfl | rfl | rfl | rfl | rfl <;>
          rcases right with rfl | rfl | rfl | rfl | rfl <;>
            first | rfl | (simp only [nan, a, b, c] at shares; cases shares)
      · cases shares
    · cases shares
  have equal : a.alike b = true := by decide +kernel
  have rebuilt : Rebuilt a c := by
    refine .object (by decide) (.cons ?_ (.cons (.plain nofun) .nil))
    exact .object (by decide) (.cons (.plain nofun) .nil)
  have buried : FoundIn (.number .nan) a := .entry List.mem_cons_self (.of_entry List.mem_cons_self)
  obtain ⟨-, -, -, -, -, -, -, copies, same⟩ := equality_lawful a b c coherent
  refine ⟨coherent, equal, (same equal).1, by decide +kernel, ?_⟩
  rw [Bool.eq_false_iff]
  intro also
  exact absurd ((copies c rebuilt).mp also _ buried) (by decide)

end Value

end Scriptlet
