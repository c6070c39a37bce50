import Mathlib.Data.List.TakeWhile
import Scriptlet.Proofs.Syntax.Correctness
import Scriptlet.Proofs.Syntax.Walk.Statement

/-!
# Every walk is safe and ends

Any tokens may be walked over, also such as no text has. The walk comes to the result of `parse`, in
no more rounds of any loop or recursion than there are tokens before the first end marker, and one.
It looks up no index without a token and never goes behind the first end marker, where it stands when
a program was read (`walk_safe`).
-/
namespace Scriptlet

namespace Syntax

open Walk

/-- The tokens of a layout with an end marker behind them. -/
theorem closed_layout (t : Layout) : ∃ t' : Layout, t'.tokens = closed t.tokens ∧
    t'.front = t.front ∧ t'.marker = t.marker := by
  obtain ⟨last, ends⟩ : ∃ last, t.tokens.getLast? = some last :=
    ⟨_, List.getLast?_eq_some_getLast (by simp [Layout.tokens])⟩
  cases at_end : Cursor.isMarker last with
  | true => exact ⟨t, by simp [closed, ends, at_end], rfl, rfl⟩
  | false =>
    refine ⟨{ t with after := t.after ++ [.endMarker last.span.stop] }, ?_, rfl, rfl⟩
    simp only [closed, ends, at_end]
    simp [Layout.tokens]

/-- The split at the first end marker is the one that a cursor makes. -/
theorem exists_layout (tokens : List Token) :
    ∃ t : Layout, t.tokens = closed tokens ∧ t.front = (Cursor.ofTokens tokens).rest ∧
      t.marker.span = Cursor.finishOf tokens := by
  cases found : tokens.find? Cursor.isMarker with
  | some marker =>
    obtain ⟨marks, front, after, rfl, plain⟩ := List.find?_eq_some_iff_append.mp found
    obtain ⟨t, same, rfl, rfl⟩ := closed_layout ⟨front, marker, after, by simpa using plain, marks⟩
    refine ⟨t, same, ?_, ?_⟩
    · rw [Cursor.ofTokens, List.takeWhile_append_of_pos plain]
      simp [marks]
    · rw [Cursor.finishOf, found]
  | none =>
    have plain : ∀ token ∈ tokens, Cursor.isMarker token = false := by simpa using found
    have all : tokens = (Cursor.ofTokens tokens).rest :=
      (List.takeWhile_eq_self_iff.mpr (by simpa using plain)).symm
    cases ends : tokens.getLast? with
    | none =>
      refine ⟨⟨tokens, .endMarker 0, [], plain, rfl⟩, ?_, all, ?_⟩
      · rw [List.getLast?_eq_none_iff] at ends
        simp [Layout.tokens, closed, ends]
      · rw [Cursor.finishOf, found, ends]
        rfl
    | some last =>
      have unmarked := plain last (List.mem_of_getLast? ends)
      refine ⟨⟨tokens, .endMarker last.span.stop, [], plain, rfl⟩, ?_, all, ?_⟩
      · simp [Layout.tokens, closed, ends, unmarked]
      · rw [Cursor.finishOf, found, ends]
        rfl

namespace Walk

variable {α : Type} {tokens : List Token} {t : Layout}

theorem firstMarker_eq (same : t.tokens = closed tokens) :
    firstMarker tokens = t.front.length := by
  have none : t.front.findIdx Cursor.isMarker = t.front.length := List.findIdx_eq_length.mpr t.plain
  rw [Syntax.firstMarker, ← same, Layout.tokens, List.findIdx_append, none]
  simp [List.findIdx_cons, t.marks]

/-- Whatever has happened on a walk over tokens, nobody has come or looked behind the first end
marker, every index had a token, and each reading took at least one. If the walk has stopped early
then for a fault of the grammar: no index was out of bounds, and no rounds were used up. -/
structure Safe (tokens : List Token) (walked : Except Halt α × Walker) : Prop where
  unchanged : walked.2.tokens = closed tokens
  inside : walked.2.current ≤ firstMarker tokens
  lookups : ∀ current index, .lookup current index ∈ walked.2.trace →
    current ≤ firstMarker tokens ∧ index ≤ firstMarker tokens ∧ index < (closed tokens).length
  readings : ∀ start stop, .reading start stop ∈ walked.2.trace →
    start < stop ∧ stop ≤ firstMarker tokens
  halts : ∀ halt, walked.1 = .error halt → ∃ fault, halt = .fault fault ∧ fault.cause ≠ .unfinished

/-- Wherever a walk begins, it goes on where it succeeds. -/
def Consumes (tokens : List Token) (p : Walk α) : Prop :=
  ∀ current ≤ firstMarker tokens, ∀ a w, p ⟨closed tokens, current, []⟩ = (.ok a, w) →
    current < w.current ∧ w.current ≤ firstMarker tokens

theorem length_closed (same : t.tokens = closed tokens) :
    t.front.length < (closed tokens).length := by
  rw [← same, Layout.tokens, List.length_append, List.length_cons]
  omega

theorem Meets.safe {k bound : Nat} {walked : Except Halt α × Walker}
    {read : Except (Located Fault) (α × Cursor)} (same : t.tokens = closed tokens)
    (met : Meets t k bound walked read) : Safe tokens walked := by
  have within : Within t walked.2 := by
    cases met with
    | value stands => exact stands.toWithin
    | fault within => exact within
  have first := firstMarker_eq same
  have length := length_closed same
  refine ⟨within.tokens.trans same, first ▸ within.inside, ?_, ?_, ?_⟩
  · intro current index member
    obtain ⟨stood, looked⟩ := within.sound _ member
    exact ⟨first ▸ stood, first ▸ looked, Nat.lt_of_le_of_lt looked length⟩
  · intro start stop member
    exact first ▸ within.sound _ member
  · rintro halt stopped
    cases met with
    | value => cases stopped
    | fault within named =>
      cases stopped
      exact ⟨_, rfl, named⟩

/-- Where a walker stands on its tokens, a cursor can stand. -/
theorem exists_stands (same : t.tokens = closed tokens) {current : Nat}
    (inside : current ≤ t.front.length) :
    Stands t ⟨closed tokens, current, []⟩
      ⟨(t.front.take current).getLast?, t.front.drop current, t.marker.span⟩ where
  tokens := same.symm
  inside := inside
  sound := nofun
  rest := rfl
  previous := rfl
  finish := rfl

theorem Follows.consumes {p : Walk α} {q : Parse α} (same : t.tokens = closed tokens)
    (h : Follows t 1 t.front.length p q) : Consumes tokens p := by
  intro current inside a w run
  rw [firstMarker_eq same] at inside ⊢
  have stands := exists_stands same inside
  have start := stands.length
  have met := h _ (by omega) _ stands
  rw [run] at met
  generalize q _ = read at met
  cases met with
  | value stands' reads =>
    have stop := stands'.length
    change (t.front.drop current).length + current = t.front.length at start
    change _ + 1 ≤ (t.front.drop current).length at reads
    exact ⟨by omega, stands'.inside⟩

end Walk

/-- A walk over any tokens, with more rounds than there are tokens before the first end marker, is
safe and has the result of `parse`. Every statement and every expression has at least one token, and
behind a whole program the walker stands at the first end marker. -/
theorem walk_safe (tokens : List Token) (limit : Nat) (enough : firstMarker tokens < limit) :
    firstMarker tokens < (closed tokens).length ∧
      (walk limit tokens).1 = (parse tokens).mapError .fault ∧
      Safe tokens (walk limit tokens) ∧
      Consumes tokens (statement limit) ∧ Consumes tokens (expression limit) ∧
      ∀ program, parse tokens = .ok program →
        (walk limit tokens).2.current = firstMarker tokens := by
  obtain ⟨t, same, front, finish⟩ := exists_layout tokens
  have first := firstMarker_eq same
  have enough' : t.front.length < limit := first ▸ enough
  have stands : Stands t (.ofTokens tokens) (.ofTokens tokens) :=
    ⟨⟨same.symm, Nat.zero_le _, nofun⟩, front.symm, rfl, finish.symm⟩
  have bound : (Cursor.ofTokens tokens).rest.length ≤ t.front.length :=
    Nat.le_of_eq (congrArg List.length front.symm)
  have met : Meets t 0 _ (walk limit tokens) _ := follows_program enough' _ bound _ stands
  refine ⟨first ▸ length_closed same, ?_, met.safe same, (follows_statement enough').consumes same,
    (follows_expression enough').consumes same, ?_⟩
  · rw [parse, StateT.run]
    generalize walk limit tokens = walked at met
    generalize Parse.program (.ofTokens tokens) = read at met
    cases met <;> rfl
  · intro program parsed
    obtain ⟨d, run⟩ := parse_ok.mp parsed
    rw [run] at met
    generalize walk limit tokens = walked at met
    cases met with
    | value stands' =>
      have stop := stands'.length
      rw [Parse.program_rest run, List.length_nil, Nat.zero_add] at stop
      exact stop.trans first.symm

/-- What stands behind an end marker is not looked at, not even a parenthesis that nothing opens. -/
theorem walk_safe_marker_between :
    let tokens : List Token :=
      [⟨.name, "x", ⟨0, 1⟩⟩, Token.endMarker 1, ⟨.closeParen, ")", ⟨1, 2⟩⟩]
    let program : Program := [.expr (.name "x" ⟨0, 1⟩) ⟨0, 1⟩]
    firstMarker tokens = 1 ∧ (walk 2 tokens).1 = .ok program ∧ (walk 2 tokens).2.current = 1 ∧
      ∀ current index, .lookup current index ∈ (walk 2 tokens).2.trace → index ≤ 1 := by
  intro tokens program
  have first : firstMarker tokens = 1 := by decide
  have parsed : parse tokens = .ok program := rfl
  obtain ⟨-, same, safe, -, -, stands⟩ := walk_safe tokens 2 (by decide)
  refine ⟨first, ?_, (stands program parsed).trans first, ?_⟩
  · rw [same, parsed]
    rfl
  · intro current index member
    exact first ▸ (safe.lookups current index member).2.1

end Syntax

end Scriptlet
