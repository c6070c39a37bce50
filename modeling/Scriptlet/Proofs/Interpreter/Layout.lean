import Scriptlet.Proofs.Eval.Parallel
import Scriptlet.Proofs.Interpreter.Stages
import Scriptlet.Proofs.Syntax.Parallel.Program

/-!
# Layout does not matter

Two sources with the same lexemes differ in the characters between them only. They are accepted or
rejected together, give the same program but for places, and end alike from every state.
-/
namespace Scriptlet

open Token (lexemes)

/-- The same end but for places: the same words of a diagnostic or the same value but for the places
inside functions, and machines that are the same but for these. -/
abbrev EndsElsewhere :
    Outcome Diagnostic Value × Machine → Outcome Diagnostic Value × Machine → Prop :=
  EndMoved Span.Anywhere Span.Anywhere (Diagnostic.Moved Span.Anywhere)
    (Value.Moved Span.Anywhere Span.Anywhere)

theorem Machine.moved_anywhere (m : Machine) : m.Moved Span.Anywhere Span.Anywhere m :=
  m.moved_self (fun _ => trivial) fun _ => trivial

variable {source other : String} {tokens others : List Token}

/-- Lexemes alone decide whether a source is accepted, as which program but for places, and in which
words it is rejected. -/
theorem parseSource_layout (scanned : Token.scan source = .ok tokens)
    (scanned' : Token.scan other = .ok others) (same : lexemes tokens = lexemes others) :
    (Outcome.ofExcept (parseSource source)).Matches (Diagnostic.Moved Span.Anywhere)
      (Program.Moved Span.Anywhere Span.Anywhere) (Outcome.ofExcept (parseSource other)) := by
  have moved := beforeEnd_moved (moved_of_lexemes same)
  rw [parseSource_of_scan scanned, parseSource_of_scan scanned']
  cases parsed : Syntax.parse tokens with
  | ok program =>
    obtain ⟨program', parsed', alike⟩ := Syntax.parse_moved_ok moving_anywhere moved parsed
    rw [parsed']
    exact .value alike
  | error e =>
    obtain ⟨span, failed⟩ := Syntax.parse_moved_error moving_anywhere moved parsed
    rw [failed]
    exact .failure ⟨rfl, trivial⟩

namespace Setup

/-- Sources with the same lexemes cannot be told apart but by the places that diagnostics and
functions carry, provided that native functions do not look at places: parsing accepts both and
gives the same program, or rejects both in the same words, and evaluation from any state ends
alike. -/
theorem layout_free (setup : Setup) (blind : setup.host.Blind Span.Anywhere Span.Anywhere)
    (scanned : Token.scan source = .ok tokens) (scanned' : Token.scan other = .ok others)
    (same : lexemes tokens = lexemes others) :
    (Outcome.ofExcept (parseSource source)).Matches (Diagnostic.Moved Span.Anywhere)
        (Program.Moved Span.Anywhere Span.Anywhere) (Outcome.ofExcept (parseSource other)) ∧
      ∀ scope machine, EndsElsewhere (setup.evalSource scope source machine)
        (setup.evalSource scope other machine) := by
  have parsed := parseSource_layout scanned scanned' same
  refine ⟨parsed, fun scope machine => ?_⟩
  unfold evalSource
  cases left : parseSource source with
  | ok program =>
    cases right : parseSource other with
    | ok program' =>
      rw [left, right] at parsed
      cases parsed with
      | value moved => exact evalProgram_parallel blind scope moved machine.moved_anywhere
    | error d' =>
      rw [left, right] at parsed
      cases parsed
  | error d =>
    cases right : parseSource other with
    | ok program' =>
      rw [left, right] at parsed
      cases parsed
    | error d' =>
      rw [left, right] at parsed
      cases parsed with
      | failure moved => exact ⟨.failure moved, machine.moved_anywhere⟩

/-- A function that fails, and a call of it, with blanks at different places. -/
theorem layout_free_blanks :
    Setup.standard.host.Blind Span.Anywhere Span.Anywhere ∧ ∃ tokens others,
      Token.scan "fn f(n) { 1 / n } f(0)" = .ok tokens ∧
      Token.scan "fn f( n ) { 1/n }\n\nf( 0 )" = .ok others ∧ lexemes tokens = lexemes others ∧
      ∀ machine, EndsElsewhere (Setup.standard.evalSource 0 "fn f(n) { 1 / n } f(0)" machine)
        (Setup.standard.evalSource 0 "fn f( n ) { 1/n }\n\nf( 0 )" machine) := by
  have law := layout_free .standard Eval.blind_standard
    (rfl : Token.scan "fn f(n) { 1 / n } f(0)" = .ok _)
    (rfl : Token.scan "fn f( n ) { 1/n }\n\nf( 0 )" = .ok _) (by decide +kernel)
  exact ⟨Eval.blind_standard, _, _, rfl, rfl, by decide +kernel, law.2 0⟩

end Setup

end Scriptlet
