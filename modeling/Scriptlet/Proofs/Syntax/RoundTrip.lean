import Scriptlet.Interpreter
import Scriptlet.Proofs.Syntax.Correctness
import Scriptlet.Proofs.Syntax.PrintedTree

/-!
# Printed programs read back

The text of a printable program is scanned as its spelling, from which the grammar derives the
program, so that the parser reads the program again. Only the spans are new.
-/
namespace Scriptlet

open Token (beforeEnd lexemes)

/-- The text of a printable program is scanned as the spelling of the program. -/
theorem scan_render {program : Program} (printable : Program.Printable program) :
    ∃ tokens, Token.scan (Program.render program) = .ok tokens ∧
      lexemes (beforeEnd tokens) = Program.spelling program := by
  obtain ⟨front, read, spelled⟩ := Program.scans printable 0 _ rfl
  rw [List.append_nil] at read
  obtain ⟨last, ends⟩ := Token.scanFrom_ok read
  have same : front = beforeEnd (front ++ [Token.endMarker _]) :=
    (List.append_inj' ends rfl).1
  exact ⟨_, read, by rw [← same, spelled]⟩

/-- What is printed of a program is read as that program, apart from the places of its nodes. -/
theorem parseSource_render {program : Program} (printable : Program.Printable program) :
    ∃ read, parseSource (Program.render program) = .ok read ∧
      Program.shape read = Program.shape program := by
  obtain ⟨tokens, scanned, spelled⟩ := scan_render printable
  have derives : Grammar.DerivesProgram (Program.shape program) (lexemes (beforeEnd tokens)) :=
    spelled ▸ Program.derives printable
  obtain ⟨read, parsed, same⟩ := Syntax.parse_of_derives derives
  refine ⟨read, ?_, same⟩
  rw [parseSource, scanned]
  simp only [Except.mapError, bind, Except.bind, parsed]

/-- A program of several kinds of statements. In two places a statement that begins with a brace or a
parenthesis follows an expression.

    fn double(n) { (n * 2) }
    const answer = double(21)
    { word: 'it' }
    (n = (!answer.word))
-/
def Program.doubling : Program :=
  [.function "double" ["n"]
    [.expr (.binary (.arithmetic .multiply) (.name "n" .unplaced)
      (.number ⟨0x4000000000000000⟩ .unplaced) .unplaced) .unplaced] .unplaced,
   .declare "answer" true (some (.call (.name "double" .unplaced)
      [.number ⟨0x4035000000000000⟩ .unplaced] .unplaced)) .unplaced,
   .expr (.object [.mk "word" (.text "it" .unplaced) .unplaced] .unplaced) .unplaced,
   .expr (.assign (.name "n" .unplaced) (.not (.member (.name "answer" .unplaced) "word" .unplaced)
      .unplaced) .unplaced) .unplaced]

theorem parseSource_render_doubling :
    Program.Printable Program.doubling ∧
      ∃ read, parseSource (Program.render Program.doubling) = .ok read ∧
        Program.shape read = Program.shape Program.doubling := by
  have two : Number.IsLiteral ⟨0x4000000000000000⟩ :=
    ⟨by decide, ['2'], by decide, List.all_eq_true.mp (by decide), by decide +kernel⟩
  have twentyOne : Number.IsLiteral ⟨0x4035000000000000⟩ :=
    ⟨by decide, ['2', '1'], by decide, List.all_eq_true.mp (by decide), by decide +kernel⟩
  have names : IsName "double" ∧ IsName "n" ∧ IsName "answer" ∧ IsName "word" := by decide
  have printable : Program.Printable Program.doubling := by
    simp [Program.Printable, Program.doubling, stmtsPrintable, Stmt.Printable, Expr.Printable,
      exprsPrintable, propertiesPrintable, Property.Printable, Stmt.takesArguments,
      Stmt.beginsWithParen, Expr.isObject, Expr.isCall, Expr.render, two, twentyOne, names]
  exact ⟨printable, parseSource_render printable⟩

end Scriptlet
