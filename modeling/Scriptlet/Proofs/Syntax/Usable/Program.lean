import Scriptlet.Proofs.Interpreter.Stages
import Scriptlet.Proofs.Syntax.Correctness
import Scriptlet.Proofs.Syntax.Usable.Grammar
import Scriptlet.Proofs.Token.Joined

/-!
# What the scanner promises the parser

The parser reads operators and numbers again from the texts that the scanner cut out. It never meets
one that it does not know, and the literals of a program stand for what is at their places in the
source (`tokens_understood`).
-/
namespace Scriptlet

open Token (beforeEnd Usable)

/-- Some words stand at the beginning of the message of a diagnostic. -/
def Diagnostic.BeginsWith (d : Diagnostic) (words : String) : Prop :=
  words.toList <+: d.message.toList

/-- All tokens of a source are usable, and so is the marker behind them. -/
theorem Token.usable_of_scan {source : String} {tokens : List Token} {token : Token}
    (scanned : scan source = .ok tokens) (member : token ∈ tokens) :
    token.Usable source.toList := by
  obtain ⟨front, rfl, splits⟩ := scan_iff_tokenizes.mp scanned
  rcases List.mem_append.mp member with among | last
  · exact splits.usable among
  · obtain rfl := List.mem_singleton.mp last
    exact ⟨nofun, nofun, nofun, nofun, nofun⟩

namespace Syntax

variable {source : List Char} {tokens : List Token}

theorem ensured_of_usable (usable : ∀ token ∈ tokens, token.Usable source) :
    Parse.Ensured (Usable source) (fun program => ∀ s ∈ program, Stmt.Faithful source s)
      (Parse.program (.ofTokens tokens)) := by
  refine Parse.ensures_program _ fun token ahead => usable token ?_
  rw [rest_ofTokens] at ahead
  exact (List.takeWhile_prefix _).subset ahead

theorem ofSequence_of_parse (usable : ∀ token ∈ tokens, token.Usable source)
    {e : Located Fault} (failed : parse tokens = .error e) : e.cause.OfSequence := by
  have ensured := ensured_of_usable usable
  rw [parse, StateT.run] at failed
  cases run : Parse.program (.ofTokens tokens) with
  | ok result =>
    rw [run] at failed
    cases failed
  | error e' =>
    rw [run] at failed ensured
    cases failed
    cases ensured with
    | fault of_sequence => exact of_sequence

theorem literal_of_parse (usable : ∀ token ∈ tokens, token.Usable source) {program : Program}
    (parsed : parse tokens = .ok program) {node : Node} (among : program.HasNode node) :
    node.Literal source := by
  have ensured := ensured_of_usable usable
  obtain ⟨d, run⟩ := parse_ok.mp parsed
  obtain ⟨s, listed, holds⟩ := among
  rw [run] at ensured
  cases ensured with
  | result faithful => exact faithful s listed node holds

end Syntax

/-! How messages begin. -/

theorem begins_append {words front : String} (back : String) (begins : words.toList <+: front.toList) :
    words.toList <+: (front ++ back).toList := by
  rw [String.toList_append]
  exact List.prefix_append_of_prefix begins

theorem Expected.begins (expected : Expected) : "Expected".toList <+: expected.message.toList := by
  cases expected with
  | declaredName | condition | conditionEnd =>
    exact begins_append _ (begins_append _ (by decide))
  | block | blockEnd => exact begins_append _ (by decide)
  | _ =>
    dsimp only [message]
    decide

/-- How the messages of faults of the sequence of tokens begin. -/
def Syntax.Fault.beginnings : List String :=
  ["Expected", "Must", "Function", "Empty", "Unexpected", "Nested"]

theorem Syntax.Fault.begins {fault : Fault} (of_sequence : fault.OfSequence) :
    ∃ words ∈ beginnings, words.toList <+: fault.message.toList := by
  cases fault with
  | missing expected found =>
    exact ⟨"Expected", by decide, begins_append _ (begins_append _ expected.begins)⟩
  | constantWithoutValue =>
    refine ⟨"Must", by decide, ?_⟩
    dsimp only [message]
    decide
  | parameterNotName => exact ⟨"Function", by decide, begins_append _ (by decide)⟩
  | emptyCondition => exact ⟨"Empty", by decide, begins_append _ (by decide)⟩
  | emptyBlock =>
    exact ⟨"Empty", by decide, begins_append _ (begins_append _ (by decide))⟩
  | emptyParentheses => exact ⟨"Empty", by decide, by decide⟩
  | unexpectedEnd => exact ⟨"Unexpected", by decide, by decide⟩
  | unexpectedToken => exact ⟨"Unexpected", by decide, begins_append _ (by decide)⟩
  | missingOperand => exact ⟨"Expected", by decide, begins_append _ (by decide)⟩
  | unknownOperator | invalidNumber => exact of_sequence.elim
  | unfinished => exact ⟨"Nested", by decide, by decide⟩

theorem Token.Fault.begins (fault : Fault) :
    ∃ words ∈ ["Unrecognized", "Unterminated"], words.toList <+: fault.message.toList := by
  cases fault with
  | unrecognized | halfOperator =>
    exact ⟨"Unrecognized", by decide, begins_append _ (begins_append _ (by decide))⟩
  | unterminated =>
    refine ⟨"Unterminated", by decide, ?_⟩
    dsimp only [message]
    decide

namespace Diagnostic

/-- Of two texts of which none begins with the other, at most one is the beginning of a message. -/
theorem BeginsWith.not {d : Diagnostic} {words others : String} (begins : d.BeginsWith words)
    (apart : ¬(words.toList <+: others.toList ∨ others.toList <+: words.toList)) :
    ¬d.BeginsWith others :=
  fun also => apart (List.prefix_or_prefix_of_prefix begins also)

/-- The messages of operators and numbers that a parser does not know begin in their own way. -/
theorem not_beginsWith {d : Diagnostic}
    (begins : ∃ words ∈ Syntax.Fault.beginnings ++ ["Unrecognized", "Unterminated"],
      d.BeginsWith words) :
    ¬d.BeginsWith "Unknown operator" ∧ ¬d.BeginsWith "Invalid number" := by
  obtain ⟨words, listed, begins⟩ := begins
  have apart : ∀ words ∈ Syntax.Fault.beginnings ++ ["Unrecognized", "Unterminated"],
      ∀ others ∈ ["Unknown operator", "Invalid number"],
        ¬(words.toList <+: others.toList ∨ others.toList <+: words.toList) := by
    decide
  exact ⟨begins.not (apart words listed _ (by decide)),
    begins.not (apart words listed _ (by decide))⟩

end Diagnostic

variable {source : String}

theorem not_beginsWith_of_parseSource {d : Diagnostic} (failed : parseSource source = .error d) :
    ¬d.BeginsWith "Unknown operator" ∧ ¬d.BeginsWith "Invalid number" := by
  apply Diagnostic.not_beginsWith
  cases scanned : Token.scan source with
  | error e =>
    rw [parseSource, scanned] at failed
    cases failed
    obtain ⟨words, listed, begins⟩ := e.cause.begins
    exact ⟨words, List.mem_append_right _ listed, begins⟩
  | ok tokens =>
    rw [parseSource_of_scan scanned] at failed
    cases read : Syntax.parse tokens with
    | ok program =>
      rw [read] at failed
      cases failed
    | error e =>
      have of_sequence :=
        Syntax.ofSequence_of_parse (fun token => Token.usable_of_scan scanned) read
      rw [read] at failed
      cases failed
      obtain ⟨words, listed, begins⟩ := Syntax.Fault.begins of_sequence
      exact ⟨words, List.mem_append_left _ listed, begins⟩

/-- **Scanner and parser understand each other.** The text of every token of a source is one that
the parser can use: an operator of the kind of the token, digits, or a text in quotes. So no
message is ever about an operator or a number that the parser does not know, and every literal of a
program stands for what is at its place in the source. -/
theorem tokens_understood (source : String) :
    (∀ tokens, Token.scan source = .ok tokens → ∀ token ∈ tokens, token.Usable source.toList) ∧
    (∀ d, parseSource source = .error d →
      ¬d.BeginsWith "Unknown operator" ∧ ¬d.BeginsWith "Invalid number") ∧
    ∀ program, parseSource source = .ok program → ∀ node, program.HasNode node →
      node.Literal source.toList := by
  refine ⟨fun tokens scanned token => Token.usable_of_scan scanned,
    fun d => not_beginsWith_of_parseSource, fun program parsed node among => ?_⟩
  obtain ⟨tokens, scanned, read⟩ := parseSource_ok.mp parsed
  exact Syntax.literal_of_parse (fun token => Token.usable_of_scan scanned) read among

end Scriptlet
