import Scriptlet.Proofs.Interpreter.Layout
import Scriptlet.Proofs.Syntax.Joined
import Scriptlet.Proofs.Token.Joined

/-!
# Line by line

A script can be entered in pieces: two sources with a newline between them are one program, the
statements of the first and those of the second further on, and do what the sources do when they are
evaluated one after the other.
-/
namespace Scriptlet

open Token (beforeEnd)

theorem EndsElsewhere.refl (ended : Outcome Diagnostic Value × Machine) :
    EndsElsewhere ended ended := by
  obtain ⟨outcome, machine⟩ := ended
  refine ⟨?_, machine.moved_anywhere⟩
  cases outcome with
  | value v => exact .value (v.moved_self (fun _ => trivial) fun _ => trivial)
  | failure d => exact .failure ⟨rfl, trivial⟩
  | unfinished => exact .unfinished

namespace Token

theorem head?_of_beforeEnd {tokens : List Token} {token : Token}
    (head : token ∈ (beforeEnd tokens).head?) : token ∈ tokens.head? := by
  cases tokens with
  | nil => cases head
  | cons first rest =>
    rw [beforeEnd, List.takeWhile_cons] at head
    split at head
    · exact head
    · cases head

theorem moved_shift {S : Span → Span → Prop} {amount : Nat} {tokens : List Token}
    (places : ∀ span : Span, S span (span.shift amount)) :
    List.Forall₂ (Token.Moved S) tokens (tokens.map (shift amount)) :=
  List.forall₂_map_right_iff.mpr (List.forall₂_same.mpr fun _ _ => ⟨rfl, rfl, places _⟩)

end Token

namespace Eval

theorem evalSequence_append (caller : Caller) (scope : ScopeId) (last : Value)
    (first second : List Stmt) :
    evalSequence caller scope last (first ++ second) =
      evalSequence caller scope last first >>= fun value =>
        evalSequence caller scope value second := by
  induction first generalizing last with
  | nil => rw [evalSequence, pure_bind, List.nil_append]
  | cons statement rest ih =>
    rw [List.cons_append, evalSequence, evalSequence, bind_assoc]
    exact congrArg _ (funext ih)

/-- The value before the first statement matters only if there is none. -/
theorem evalSequence_of_ne_nil (caller : Caller) (scope : ScopeId) (last other : Value)
    {statements : List Stmt} (full : statements ≠ []) :
    evalSequence caller scope last statements = evalSequence caller scope other statements := by
  cases statements with
  | nil => exact absurd rfl full
  | cons => rw [evalSequence, evalSequence]

end Eval

namespace Setup

/-- Evaluates a source and then, if it came to a value, another one. -/
def evalBoth (setup : Setup) (scope : ScopeId) (first second : String) (machine : Machine) :
    Outcome Diagnostic Value × Machine :=
  match setup.evalSource scope first machine with
  | (.value _, next) => setup.evalSource scope second next
  | (.failure diagnostic, next) => (.failure diagnostic, next)
  | (.unfinished, next) => (.unfinished, next)

variable (setup : Setup)

theorem evalProgram_append (scope : ScopeId) (first : Program) {second : Program}
    (full : second ≠ []) (machine : Machine) :
    setup.evalProgram scope (first ++ second) machine =
      match setup.evalProgram scope first machine with
      | (.value _, next) => setup.evalProgram scope second next
      | (.failure diagnostic, next) => (.failure diagnostic, next)
      | (.unfinished, next) => (.unfinished, next) := by
  unfold evalProgram conclude Eval.evalProgram
  rw [Eval.evalSequence_append, Eval.Run.bind_apply]
  cases Eval.evalSequence (Eval.invoke setup.host setup.depth) scope .null first machine with
  | mk outcome next =>
    cases outcome with
    | value value =>
      dsimp only [Outcome.mapError]
      rw [Eval.evalSequence_of_ne_nil _ _ value .null full]
    | failure e => rfl
    | unfinished => rfl

variable {first second joined : String} {tokens others : List Token} {read other moved : Program}

/-- A source with the statements of both does what they do. -/
theorem evalBoth_joined (blind : setup.host.Blind Span.Anywhere Span.Anywhere)
    (parsed : parseSource first = .ok read) (parsed' : parseSource second = .ok other)
    (whole : parseSource joined = .ok (read ++ moved))
    (alike : other.Moved Span.Anywhere Span.Anywhere moved) (full : other ≠ []) (scope : ScopeId)
    (machine : Machine) :
    EndsElsewhere (setup.evalBoth scope first second machine)
      (setup.evalSource scope joined machine) := by
  have full' : moved ≠ [] := by
    rintro rfl
    cases alike
    exact full rfl
  unfold evalBoth
  rw [setup.evalSource_of_parse whole, setup.evalProgram_append scope read full',
    setup.evalSource_of_parse parsed]
  simp only [setup.evalSource_of_parse parsed']
  cases setup.evalProgram scope read machine with
  | mk outcome next =>
    cases outcome with
    | value value => exact evalProgram_parallel blind scope alike next.moved_anywhere
    | failure d => exact .refl _
    | unfinished => exact .refl _

/-- **Lines can be joined.** Unless arguments of a call could begin the second source and nothing
ends the last statement of the first one before them, both are read as one program with their
statements, those of the second further on by the characters before them. If the second source has a
statement, the joined one ends like both of them one after the other, from any state, provided that
native functions do not look at places. -/
theorem join_lines (blind : setup.host.Blind Span.Anywhere Span.Anywhere)
    (scanned : Token.scan first = .ok tokens) (parsed : Syntax.parse tokens = .ok read)
    (scanned' : Token.scan second = .ok others) (parsed' : Syntax.parse others = .ok other)
    (apart : (∀ token ∈ others.head?, token.kind ≠ .openParen) ∨
      (∃ token ∈ (beforeEnd tokens).getLast?, token.kind = .semicolon) ∨
      ∃ s ∈ read.getLast?, s.hasBlock = true) :
    (∃ moved, parseSource (first ++ "\n" ++ second) = .ok (read ++ moved) ∧
      other.Moved (Span.Shifted (first.length + 1)) (Span.Shifted (first.length + 1)) moved) ∧
    (other ≠ [] → ∀ scope machine, EndsElsewhere (setup.evalBoth scope first second machine)
      (setup.evalSource scope (first ++ "\n" ++ second) machine)) := by
  obtain ⟨joined, scanned_joined, spelled⟩ := Token.scan_join scanned scanned'
  have separate : (∀ token ∈ (beforeEnd others).head?, token.kind ≠ .openParen) ∨
      (∀ token ∈ (beforeEnd tokens).getLast?, token.kind = .semicolon) ∨
      ∀ s ∈ read.getLast?, s.hasBlock = true := by
    rcases apart with no_args | ⟨token, final, semicolon⟩ | ⟨s, final, block⟩
    · exact .inl fun token head => no_args token (Token.head?_of_beforeEnd head)
    · exact .inr (.inl fun token' final' => Option.mem_unique final final' ▸ semicolon)
    · exact .inr (.inr fun s' final' => Option.mem_unique final final' ▸ block)
  obtain ⟨moved, parsed_joined, alike⟩ := Syntax.parse_join (moving_shifted (first.length + 1))
    parsed parsed' (Token.moved_shift (S := Span.Shifted _) fun _ => rfl) spelled separate
  have whole := parseSource_ok.mpr ⟨_, scanned_joined, parsed_joined⟩
  refine ⟨⟨moved, whole, alike⟩, fun full scope machine => ?_⟩
  obtain ⟨moved', parsed_again, anywhere⟩ := Syntax.parse_join moving_anywhere parsed parsed'
    (Token.moved_shift fun _ => trivial) spelled separate
  obtain rfl : moved' = moved :=
    List.append_cancel_left (Except.ok.inj (parsed_again.symm.trans parsed_joined))
  exact setup.evalBoth_joined blind (parseSource_ok.mpr ⟨_, scanned, parsed⟩)
    (parseSource_ok.mpr ⟨_, scanned', parsed'⟩) whole anywhere full scope machine

/-- Behind a semicolon a line may begin with a parenthesis. -/
theorem join_lines_parenthesis :
    Setup.standard.host.Blind Span.Anywhere Span.Anywhere ∧ ∃ tokens others read other,
      Token.scan "let x = 6;" = .ok tokens ∧ Syntax.parse tokens = .ok read ∧
      Token.scan "(x / 2)" = .ok others ∧ Syntax.parse others = .ok other ∧ other ≠ [] ∧
      (∃ token ∈ (beforeEnd tokens).getLast?, token.kind = .semicolon) ∧
      (∃ moved, parseSource "let x = 6;\n(x / 2)" = .ok (read ++ moved) ∧
        other.Moved (Span.Shifted 11) (Span.Shifted 11) moved) ∧
      ∀ machine, EndsElsewhere (Setup.standard.evalBoth 0 "let x = 6;" "(x / 2)" machine)
        (Setup.standard.evalSource 0 "let x = 6;\n(x / 2)" machine) := by
  have one : (parseSource "let x = 6;").map List.length = .ok 1 := by decide +kernel
  have one' : (parseSource "(x / 2)").map List.length = .ok 1 := by decide +kernel
  obtain ⟨read, whole, -⟩ := exists_of_map_ok one
  obtain ⟨other, whole', size⟩ := exists_of_map_ok one'
  obtain ⟨tokens, scanned, parsed⟩ := parseSource_ok.mp whole
  obtain ⟨others, scanned', parsed'⟩ := parseSource_ok.mp whole'
  have full : other ≠ [] := List.ne_nil_of_length_eq_add_one size
  have final : ∃ token ∈ (beforeEnd tokens).getLast?, token.kind = .semicolon := by
    obtain rfl := Except.ok.inj (scanned.symm.trans (rfl : Token.scan "let x = 6;" = .ok _))
    exact ⟨_, rfl, rfl⟩
  have law := join_lines .standard Eval.blind_standard scanned parsed scanned' parsed'
    (.inr (.inl final))
  exact ⟨Eval.blind_standard, tokens, others, read, other, scanned, parsed, scanned', parsed', full,
    final, law.1, law.2 full 0⟩

end Setup

end Scriptlet
