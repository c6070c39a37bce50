import Scriptlet.Proofs.Syntax.Correctness
import Scriptlet.Proofs.Syntax.Parallel.Statement

/-!
# Programs side by side

The parser on the same lexemes in other places: it accepts both sequences of tokens and gives the
same program in other places, or rejects both for the same cause.
-/
namespace Scriptlet

namespace Span

/-- Any two spans. -/
def Anywhere (_ _ : Span) : Prop := True

/-- The same characters after `amount` more were put in front of the text. -/
def Shifted (amount : Nat) (s t : Span) : Prop := t = s.shift amount

end Span

theorem moving_anywhere : Moving Span.Anywhere :=
  ⟨fun s => ⟨s, trivial⟩, fun _ _ => trivial⟩

theorem moving_eq : Moving Eq :=
  ⟨fun s => ⟨s, rfl⟩, by rintro _ _ _ _ rfl rfl; rfl⟩

theorem moving_shifted (amount : Nat) : Moving (Span.Shifted amount) where
  total s := ⟨s.shift amount, rfl⟩
  cover := by
    rintro a _ b _ rfl rfl
    exact (Span.shift_cover amount a b).symm

/-- A property of spans that a cover inherits. -/
theorem moving_of_property {good : Span → Prop} (some_ : ∃ s, good s)
    (cover : ∀ {a b : Span}, good a → good b → good (a.cover b)) : Moving fun _ t => good t where
  total _ := some_
  cover := cover

open Token (Lexeme lexemes beforeEnd)

variable {S : Span → Span → Prop} {tokens others : List Token}

theorem moved_of_lexemes (same : lexemes tokens = lexemes others) :
    List.Forall₂ (Token.Moved Span.Anywhere) tokens others := by
  induction tokens generalizing others with
  | nil =>
    cases others with
    | nil => exact .nil
    | cons => cases same
  | cons token tokens ih =>
    cases others with
    | nil => cases same
    | cons other others =>
      rw [Token.lexemes_cons, Token.lexemes_cons, List.cons.injEq] at same
      obtain ⟨kind_eq, text_eq⟩ := Lexeme.mk.inj same.1
      exact .cons ⟨kind_eq, text_eq, trivial⟩ (ih same.2)

theorem beforeEnd_moved (same : List.Forall₂ (Token.Moved S) tokens others) :
    List.Forall₂ (Token.Moved S) (beforeEnd tokens) (beforeEnd others) := by
  unfold beforeEnd
  induction same with
  | nil => exact .nil
  | @cons token other _ _ first _ ih =>
    rw [List.takeWhile_cons, List.takeWhile_cons, first.kind_eq]
    split
    · exact .cons first ih
    · exact .nil

namespace Syntax

/-- Where the same lexemes come and nothing behind them, cursors stand side by side. -/
theorem follows_of_moved {c d : Cursor} (same : List.Forall₂ (Token.Moved S) c.rest d.rest) :
    c.Follows S (fun _ => True) [] 0 d where
  rest := ⟨d.rest, same, (List.append_nil _).symm⟩
  last _ _ := trivial
  previous known := absurd known (Nat.lt_irrefl 0)

variable (moving : Moving S)
include moving

namespace Parse

theorem program_moved {c d c' : Cursor} {read : Program}
    (same : List.Forall₂ (Token.Moved S) c.rest d.rest) (run : program c = .ok (read, c')) :
    ∃ other d', program d = .ok (other, d') ∧ Program.Moved S S read other := by
  obtain ⟨other, d', run', moved, -⟩ :=
    (parallel_program moving).ok (Nat.le_refl _) (follows_of_moved same) run fun _ => absurd rfl
  exact ⟨other, d', run', moved⟩

end Parse

theorem parse_moved_ok {read : Program}
    (same : List.Forall₂ (Token.Moved S) (beforeEnd tokens) (beforeEnd others))
    (parsed : parse tokens = .ok read) :
    ∃ other, parse others = .ok other ∧ Program.Moved S S read other := by
  rw [← rest_ofTokens, ← rest_ofTokens] at same
  obtain ⟨d, run⟩ := parse_ok.mp parsed
  obtain ⟨other, d', run', moved⟩ := Parse.program_moved moving same run
  exact ⟨other, parse_ok.mpr ⟨d', run'⟩, moved⟩

theorem parse_moved_error {e : Located Fault}
    (same : List.Forall₂ (Token.Moved S) (beforeEnd tokens) (beforeEnd others))
    (failed : parse tokens = .error e) : ∃ span, parse others = .error ⟨e.cause, span⟩ := by
  rw [← rest_ofTokens, ← rest_ofTokens] at same
  rw [parse, StateT.run] at failed
  cases run : Parse.program (.ofTokens tokens) with
  | ok result =>
    rw [run] at failed
    cases failed
  | error e' =>
    rw [run] at failed
    cases failed
    obtain ⟨span, run'⟩ :=
      (Parse.parallel_program moving).error (Nat.le_refl _) (follows_of_moved same) run rfl
    exact ⟨span, by rw [parse, StateT.run, run']; rfl⟩

end Syntax

end Scriptlet
