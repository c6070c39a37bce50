import Scriptlet.Proofs.Interpreter.Stages
import Scriptlet.Proofs.Syntax.Correctness
import Scriptlet.Proofs.Syntax.Pointing.Grammar
import Scriptlet.Proofs.Token.Joined

/-!
# Errors of the parser point at the input

The spans that run from the beginning of a token of a source to the end of one are a class that
covering does not lead out of. So every error of the parser is about such a span, or about the
character behind the last token, and lies within one character of the source.
-/
namespace Scriptlet

open Token (beforeEnd Splits endMarker)

/-- From the beginning of a token to the end of that or another one. -/
structure Span.AtEdges (tokens : List Token) (span : Span) : Prop where
  start : ∃ token ∈ tokens, span.start = token.span.start
  stop : ∃ token ∈ tokens, span.stop = token.span.stop
  ordered : span.start ≤ span.stop

namespace Syntax

open Parse (CoverClosed Grounded Pointed)

variable {tokens front : List Token} {text : List Char}

theorem coverClosed_atEdges : CoverClosed (Span.AtEdges tokens) := by
  intro a b of_a of_b
  refine ⟨?_, ?_, ?_⟩
  · rcases Nat.le_total a.start b.start with first | second
    · rw [Span.cover, Nat.min_eq_left first]
      exact of_a.start
    · rw [Span.cover, Nat.min_eq_right second]
      exact of_b.start
  · rcases Nat.le_total a.stop b.stop with second | first
    · rw [Span.cover, Nat.max_eq_right second]
      exact of_b.stop
    · rw [Span.cover, Nat.max_eq_left first]
      exact of_a.stop
  · have := of_a.ordered
    simp only [Span.cover]
    omega

theorem finishOf_marked (splits : Splits text 0 front) (finish : Nat) :
    Cursor.finishOf (front ++ [endMarker finish]) = .empty finish := by
  have plain : front.find? Cursor.isMarker = none := by
    refine List.find?_eq_none.mpr fun token member marks => ?_
    exact (splits.classified token member).ne_endOfInput (of_decide_eq_true marks)
  have marked : (front ++ [endMarker finish]).find? Cursor.isMarker = some (endMarker finish) := by
    rw [List.find?_append, plain]
    rfl
  rw [Cursor.finishOf, marked]
  rfl

/-- Where parsing of a source begins. -/
theorem grounded_ofTokens (splits : Splits text 0 front) :
    Grounded (Span.AtEdges (front ++ [endMarker text.length])) front.getLast?
      (.ofTokens (front ++ [endMarker text.length])) := by
  have rest : (Cursor.ofTokens (front ++ [endMarker text.length])).rest = front := by
    rw [rest_ofTokens, splits.beforeEnd_eq _ rfl]
  refine ⟨?_, nofun, ?_, ?_⟩
  · rw [rest]
    intro token member
    have among := List.mem_append_left [endMarker text.length] member
    exact ⟨⟨token, among, rfl⟩, ⟨token, among, rfl⟩, (splits.within token member).2.1.le⟩
  · rw [Cursor.ofTokens, finishOf_marked splits]
    exact ⟨⟨_, List.mem_concat_self, rfl⟩, ⟨_, List.mem_concat_self, rfl⟩, Nat.le_refl _⟩
  · exact congrArg List.getLast? rest

theorem pointed_of_parse (splits : Splits text 0 front) {e : Located Fault}
    (failed : parse (front ++ [endMarker text.length]) = .error e) :
    Pointed (Span.AtEdges (front ++ [endMarker text.length])) front.getLast? e.span := by
  have points := Parse.points_program coverClosed_atEdges _ (grounded_ofTokens splits)
  rw [parse, StateT.run] at failed
  cases run : Parse.program (.ofTokens (front ++ [endMarker text.length])) with
  | ok result =>
    rw [run] at failed
    cases failed
  | error e' =>
    rw [run] at failed points
    cases failed
    cases points with
    | fault pointed => exact pointed

end Syntax

variable {text : List Char} {front : List Token} {token : Token}

/-- No token ends behind the text, and the marker of the end stands at its end. -/
theorem Token.Splits.stop_le (splits : Splits text 0 front)
    (member : token ∈ front ++ [endMarker text.length]) : token.span.stop ≤ text.length := by
  rcases List.mem_append.mp member with among | last
  · exact (splits.within token among).2.2
  · obtain rfl := List.mem_singleton.mp last
    exact Nat.le_refl _

/-- **Parse errors point at the input.** What is wrong with a source that can be split into tokens is
told as an error of the parser, about characters of the source or the one behind its end. The
characters begin where some token does, the marker of the end included, or behind the last one
before it, and they end where some token does, or are the one character behind the last one. -/
theorem parse_error_points (source : String) (tokens : List Token) (d : Diagnostic)
    (scanned : Token.scan source = .ok tokens) (failed : parseSource source = .error d) :
    d.stage = .parsing ∧
    d.span.start ≤ d.span.stop ∧ d.span.start ≤ source.length ∧ d.span.stop ≤ source.length + 1 ∧
    ((∃ token ∈ tokens, d.span.start = token.span.start) ∨
      ∃ last, (beforeEnd tokens).getLast? = some last ∧ d.span.start = last.span.stop) ∧
    ((∃ token ∈ tokens, d.span.stop = token.span.stop) ∨
      ∃ last, (beforeEnd tokens).getLast? = some last ∧ d.span.start = last.span.stop ∧
        d.span.stop = d.span.start + 1) := by
  obtain ⟨front, rfl, splits⟩ := Token.scan_iff_tokenizes.mp scanned
  rw [splits.beforeEnd_eq _ rfl]
  rw [parseSource_of_scan scanned] at failed
  cases read : Syntax.parse (front ++ [endMarker source.toList.length]) with
  | ok program =>
    rw [read] at failed
    cases failed
  | error e =>
    have pointed := Syntax.pointed_of_parse splits read
    rw [read] at failed
    cases failed
    refine ⟨rfl, ?_⟩
    obtain ⟨cause, span⟩ := e
    dsimp only [Syntax.Fault.diagnostic] at pointed ⊢
    rw [← String.length_toList]
    cases pointed with
    | edge at_edge =>
      obtain ⟨token, among, stop⟩ := at_edge.stop
      have inside := splits.stop_le among
      have ordered := at_edge.ordered
      exact ⟨ordered, by omega, by omega, .inl at_edge.start, .inl ⟨token, among, stop⟩⟩
    | @behind last at_last =>
      have inside := splits.stop_le (List.mem_append_left _ (List.mem_of_getLast? at_last))
      exact ⟨Nat.le_succ _, inside, Nat.succ_le_succ inside, .inr ⟨last, at_last, rfl⟩,
        .inr ⟨last, at_last, rfl, rfl⟩⟩

/-- The error is about the character behind the last token also if blanks follow. -/
theorem parse_error_points_before_blanks :
    let tokens : List Token := [⟨.name, "f", ⟨0, 1⟩⟩, ⟨.openParen, "(", ⟨1, 2⟩⟩,
      ⟨.name, "x", ⟨2, 3⟩⟩, endMarker 5]
    Token.scan "f(x  " = .ok tokens ∧ ∃ d, parseSource "f(x  " = .error d ∧ d.span = ⟨3, 4⟩ ∧
      ((∃ token ∈ tokens, d.span.start = token.span.start) ∨
        ∃ last, (beforeEnd tokens).getLast? = some last ∧ d.span.start = last.span.stop) := by
  intro tokens
  have scanned : Token.scan "f(x  " = .ok tokens := rfl
  have place : ((parseSource "f(x  ").mapError (·.span)).map List.length = .error ⟨3, 4⟩ := by
    decide +kernel
  cases failed : parseSource "f(x  " with
  | ok program =>
    rw [failed] at place
    cases place
  | error d =>
    rw [failed] at place
    obtain ⟨-, -, -, -, start, -⟩ := parse_error_points "f(x  " tokens d scanned failed
    exact ⟨scanned, d, rfl, Except.error.inj place, start⟩

end Scriptlet
