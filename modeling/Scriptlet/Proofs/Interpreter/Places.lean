import Scriptlet.Proofs.Eval.ConstantLaw
import Scriptlet.Proofs.Eval.Parallel
import Scriptlet.Proofs.Interpreter.Stages
import Scriptlet.Proofs.Syntax.Parallel.Program
import Scriptlet.Proofs.Token.Joined

/-!
# Where diagnostics point

A diagnostic of a running program points at a statement or an expression that was read from some
source. In a session this need not be the source that is evaluated: a function keeps the places of
the source that declared it, and spans do not tell of which text they are. So what is reported
against one text may point into another one.

That spans come from a set is the case of the relations in which a span is related to itself if it
belongs to the set: `Parallel` runs of a program beside itself stay within it.
-/
namespace Scriptlet

open Token (beforeEnd)

/-- Inside a text of `size` characters. -/
def Span.Within (size : Nat) (span : Span) : Prop := span.start ≤ span.stop ∧ span.stop ≤ size

theorem Span.Within.cover {size : Nat} {a b : Span} (left : a.Within size) (right : b.Within size) :
    (a.cover b).Within size := by
  unfold Within Span.cover at *
  dsimp only
  omega

namespace Outcome

variable {ε α : Type} {x : Outcome ε α} {e : ε}

def failure? : Outcome ε α → Option ε
  | .failure e => some e
  | .value _ | .unfinished => none

theorem failure?_eq_some : x.failure? = some e ↔ x = .failure e := by
  cases x <;> simp [failure?]

/-- How a run failed can be computed, also where values cannot be compared. -/
instance [DecidableEq ε] : Decidable (x = .failure e) :=
  decidable_of_iff (x.failure? = some e) failure?_eq_some

end Outcome

variable {source : String} {program : Program}

/-- All statements and expressions of a program lie inside the text that it was read from. -/
theorem spans_within (parsed : parseSource source = .ok program) :
    ∀ span ∈ Program.spans program, span.Within source.length := by
  obtain ⟨tokens, scanned, read⟩ := parseSource_ok.mp parsed
  obtain ⟨front, rfl, splits⟩ := Token.scan_iff_tokenizes.mp scanned
  have placed : ∀ token ∈ front, Token.Moved (fun _ t => t.Within source.length) token token := by
    intro token member
    obtain ⟨-, some_, inside⟩ := splits.within token member
    exact ⟨rfl, rfl, some_.le, String.length_toList ▸ inside⟩
  have moving : Moving fun _ t => t.Within source.length :=
    moving_of_property ⟨.empty 0, Nat.le_refl 0, Nat.zero_le _⟩ Span.Within.cover
  obtain ⟨again, read', moved⟩ := Syntax.parse_moved_ok moving
    (by rw [splits.beforeEnd_eq _ rfl]; exact List.forall₂_same.mpr placed) read
  obtain rfl : program = again := Except.ok.inj (read.symm.trans read')
  exact List.forall₂_same.mp moved.spans

/-- The span of a statement or an expression of the program that a source spells. -/
def SpanOf (source : String) (span : Span) : Prop :=
  ∃ program, parseSource source = .ok program ∧ span ∈ Program.spans program

theorem SpanOf.within {span : Span} (h : SpanOf source span) : span.Within source.length := by
  obtain ⟨program, parsed, member⟩ := h
  exact spans_within parsed span member

/-- A machine all of whose functions have bodies with good spans. -/
abbrev Machine.Placed (good : Span → Prop) (machine : Machine) : Prop :=
  machine.Moved (fun span _ => good span) Span.Anywhere machine

namespace Setup

variable {good : Span → Prop} {scope : ScopeId} {machine : Machine}

/-- A source with good spans fails at a good span, where functions have good spans, and leaves such
functions behind. -/
theorem evalSource_placed (depth : Nat) (nodes : ∀ span, SpanOf source span → good span)
    (placed : machine.Placed good) :
    (∀ d, (Setup.evalSource ⟨.standard, depth⟩ scope source machine).1 = .failure d →
      d.stage = .runtime → good d.span) ∧
    (Setup.evalSource ⟨.standard, depth⟩ scope source machine).2.Placed good := by
  cases parsed : parseSource source with
  | error d =>
    have same : Setup.evalSource ⟨.standard, depth⟩ scope source machine =
        (.failure d, machine) := by
      rw [evalSource, parsed]
    rw [same]
    refine ⟨?_, placed⟩
    rintro _ ⟨⟩ runtime
    exact absurd runtime (parseSource_stage parsed)
  | ok program =>
    have moved : Program.Moved (fun span _ => good span) Span.Anywhere program program :=
      movedStmts_self (fun _ => trivial) program fun span member => nodes span ⟨_, parsed, member⟩
    have blind : (⟨.standard, depth⟩ : Setup).host.Blind (fun span _ => good span) Span.Anywhere :=
      Eval.blind_standard
    have ended := evalProgram_parallel blind scope moved placed
    rw [evalSource_of_parse _ parsed]
    refine ⟨fun d failed _ => ?_, ended.machine⟩
    have outcome := ended.outcome
    rw [failed] at outcome
    cases outcome with
    | failure related => exact related.place

/-- The induction is on the sources: each leaves functions behind that the later ones may call. -/
theorem afterSession_placed (depth : Nat) (session : List (ScopeId × String))
    (nodes : ∀ entry ∈ session, ∀ span, SpanOf entry.2 span → good span)
    (placed : machine.Placed good) :
    (Setup.afterSession ⟨.standard, depth⟩ session machine).Placed good := by
  induction session generalizing machine with
  | nil => exact placed
  | cons entry rest ih =>
    rw [List.forall_mem_cons] at nodes
    exact ih nodes.2 (evalSource_placed depth nodes.1 placed).2

/-- The end of a source that is evaluated in a global scope after some others. -/
def evalAfter (setup : Setup) (sources : List String) (source : String) :
    Outcome Diagnostic Value × Machine :=
  let (scope, machine) := Machine.initial.newGlobalScope
  setup.evalSource scope source (setup.afterSession (sources.map (scope, ·)) machine)

/-- **Where runtime diagnostics point.** A source of a session fails at run time at the span of a
statement or an expression that was read from this source and lies inside it, or from an earlier
one, and then lies inside that. So the first source of a session fails inside of itself. -/
theorem runtime_span_of_session (depth : Nat) (sources : List String) (source : String)
    {d : Diagnostic} (failed : (evalAfter ⟨.standard, depth⟩ sources source).1 = .failure d)
    (runtime : d.stage = .runtime) :
    (SpanOf source d.span ∧ d.span.Within source.length) ∨
      ∃ earlier ∈ sources, SpanOf earlier d.span ∧ d.span.Within earlier.length := by
  let good : Span → Prop := fun span =>
    SpanOf source span ∨ ∃ earlier ∈ sources, SpanOf earlier span
  have start : Machine.initial.newGlobalScope.2.Placed good := Machine.initial_moved.newGlobalScope
  have before := afterSession_placed depth
    (sources.map (Machine.initial.newGlobalScope.1, ·)) (by
      simp only [List.forall_mem_map]
      exact fun earlier member span place => .inr ⟨earlier, member, place⟩) start
  rcases (evalSource_placed depth (fun _ => .inl) before).1 d failed runtime with
    own | ⟨earlier, member, place⟩
  · exact .inl ⟨own, own.within⟩
  · exact .inr ⟨earlier, member, place, place.within⟩

/-- A name that nothing declares is located in the source that reads it. -/
theorem runtime_span_of_session_undefined :
    let d : Diagnostic := ⟨.runtime, ⟨4, 5⟩, "Undefined variable: y",
      some "Declare it first: let y = value"⟩
    (evalAfter ⟨.standard, 1⟩ ["let x = 1"] "x + y").1 = .failure d ∧ d.stage = .runtime ∧
      ((SpanOf "x + y" d.span ∧ d.span.Within "x + y".length) ∨
        ∃ earlier ∈ ["let x = 1"], SpanOf earlier d.span ∧ d.span.Within earlier.length) := by
  intro d
  have failed : (evalAfter ⟨.standard, 1⟩ ["let x = 1"] "x + y").1 = .failure d := by
    decide +kernel
  exact ⟨failed, rfl, runtime_span_of_session 1 _ _ failed rfl⟩

/-- A call of a function that an earlier source declares can fail at a place that the source of the
call does not have. -/
theorem session_span_outside :
    let d : Diagnostic := ⟨.runtime, ⟨10, 15⟩, "Cannot divide by 0", none⟩
    (evalAfter .standard ["fn f(n) { n % 0 }"] "f(1)").1 = .failure d ∧ d.stage = .runtime ∧
      ¬ SpanOf "f(1)" d.span ∧ ¬ d.span.Within "f(1)".length := by
  intro d
  have outside : ¬ d.span.Within "f(1)".length := fun inside =>
    absurd inside.2 (by decide)
  exact ⟨by decide +kernel, rfl, fun own => outside own.within, outside⟩

end Setup

end Scriptlet
