import Scriptlet.Proofs.Syntax.Soundness.Statement
import Scriptlet.Proofs.Syntax.Completeness.Statement

/-!
# The parser reads the grammar

Soundness and completeness together: the programs that the parser gives are those that the grammar
derives. Since a parser gives one result, the grammar derives one program at most.
-/
namespace Scriptlet

open Token (Lexeme lexemes beforeEnd)

namespace Syntax

theorem rest_ofTokens (tokens : List Token) : (Cursor.ofTokens tokens).rest = beforeEnd tokens := by
  have same : (!Cursor.isMarker ·) = fun token : Token => decide (token.kind ≠ .endOfInput) := by
    funext token
    exact decide_not.symm
  exact congrArg (List.takeWhile · tokens) same

theorem parse_ok {tokens : List Token} {program : Program} :
    parse tokens = .ok program ↔ ∃ d, Parse.program (.ofTokens tokens) = .ok (program, d) := by
  rw [parse, StateT.run]
  cases Parse.program (.ofTokens tokens) with
  | error e => simp [Except.map]
  | ok result =>
    obtain ⟨read, d⟩ := result
    simp [Except.map]

/-- What is read is what the tokens before the end marker spell. -/
theorem derives_of_parse {tokens : List Token} {read : Program} (parsed : parse tokens = .ok read) :
    Grammar.DerivesProgram (Program.shape read) (lexemes (beforeEnd tokens)) := by
  rw [← rest_ofTokens]
  obtain ⟨d, run⟩ := parse_ok.mp parsed
  exact Parse.program_ok run

/-- Whatever the tokens before the end marker spell is read. -/
theorem parse_of_derives {tokens : List Token} {program : Program}
    (derives : Grammar.DerivesProgram (Program.shape program) (lexemes (beforeEnd tokens))) :
    ∃ read, parse tokens = .ok read ∧ Program.shape read = Program.shape program := by
  rw [← rest_ofTokens] at derives
  obtain ⟨read, d, run, -, made⟩ := Parse.reads_program derives (.ofTokens tokens) (by simp)
  exact ⟨read, parse_ok.mpr ⟨d, run⟩, made⟩

/-- A sequence of tokens is read as a program just if its tokens before the end marker spell that
program. Spans are left out of account. -/
theorem parse_iff_derives (tokens : List Token) (program : Program) :
    (∃ read, parse tokens = .ok read ∧ Program.shape read = Program.shape program) ↔
      Grammar.DerivesProgram (Program.shape program) (lexemes (beforeEnd tokens)) := by
  constructor
  · rintro ⟨read, parsed, same⟩
    exact same ▸ derives_of_parse parsed
  · exact parse_of_derives

end Syntax

namespace Grammar

/-- The greedy rule for arguments leaves no choice: lexemes spell one program at most. -/
theorem derives_unique {p q : Program} {ls : List Lexeme} (of_p : DerivesProgram p ls)
    (of_q : DerivesProgram q ls) : p = q := by
  let tokens := ls.map fun l => (⟨l.kind, l.text, .unplaced⟩ : Token)
  have spelled : lexemes tokens = ls ++ [] := by
    rw [lexemes, List.map_map, List.append_nil]
    exact List.map_id ls
  obtain ⟨read, _, run, -, rfl⟩ := Syntax.Parse.reads_program of_p ⟨none, tokens, .unplaced⟩ spelled
  obtain ⟨again, _, run', -, rfl⟩ := Syntax.Parse.reads_program of_q ⟨none, tokens, .unplaced⟩ spelled
  have same := run.symm.trans run'
  cases same
  rfl

end Grammar

end Scriptlet
