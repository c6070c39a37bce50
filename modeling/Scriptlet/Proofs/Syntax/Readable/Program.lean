import Scriptlet.Interpreter
import Scriptlet.Proofs.Syntax.Readable.Statement

/-!
# Printed programs show their trees

Parentheses are printed around operators only, so that the text of a program need not be a source
text of the same program, or of any. Yet it belongs to that program alone: a reader of printed text
gives the program back (`Readback.program_render`), and so two programs with the same text differ in
their places at most (`render_unambiguous`).
-/
namespace Scriptlet

/-- No text of a program contains the quote that texts are printed with, and its numbers are
finite. -/
def Program.Plain (program : Program) : Prop := ∀ node, Program.HasNode program node → node.Plain

/-- A program of a source is readable, if it is plain. -/
theorem readable_of_parse {source : String} {tokens : List Token} {program : Program}
    (scanned : Token.scan source = .ok tokens) (parsed : Syntax.parse tokens = .ok program)
    (plain : Program.Plain program) : ∀ s ∈ program, s.Readable :=
  fun s member node holds =>
    ⟨worded_of_parse scanned parsed s member node holds, plain node ⟨s, member, holds⟩⟩

/-- Programs with the same text are the same but for the places of their nodes. -/
theorem render_unambiguous {source source' : String} {tokens tokens' : List Token} {p q : Program}
    (scanned : Token.scan source = .ok tokens) (parsed : Syntax.parse tokens = .ok p)
    (plain : Program.Plain p) (scanned' : Token.scan source' = .ok tokens')
    (parsed' : Syntax.parse tokens' = .ok q) (plain' : Program.Plain q)
    (same : Program.render p = Program.render q) : Program.shape p = Program.shape q := by
  have first := Readback.program_render (readable_of_parse scanned parsed plain)
  have second := Readback.program_render (readable_of_parse scanned' parsed' plain')
  rw [same] at first
  exact first.unique second

/-- The member of an object literal is printed without the parentheses that the source needs, so that
the text is no program. A semicolon leaves no trace in it. -/
theorem render_unambiguous_object :
    let tokens : List Token :=
      [⟨.openParen, "(", ⟨0, 1⟩⟩, ⟨.openBrace, "\x7b", ⟨1, 2⟩⟩, ⟨.closeBrace, "\x7d", ⟨2, 3⟩⟩,
        ⟨.closeParen, ")", ⟨3, 4⟩⟩, ⟨.period, ".", ⟨4, 5⟩⟩, ⟨.name, "y", ⟨5, 6⟩⟩]
    let semicolon : Token := ⟨.semicolon, ";", ⟨6, 7⟩⟩
    let program := fun whole : Span =>
      ([.expr (.member (.object [] ⟨1, 3⟩) "y" ⟨1, 6⟩) whole] : Program)
    Token.scan "(\x7b\x7d).y" = .ok (tokens ++ [Token.endMarker 6]) ∧
      Syntax.parse (tokens ++ [Token.endMarker 6]) = .ok (program ⟨0, 6⟩) ∧
        Program.Plain (program ⟨0, 6⟩) ∧
    Token.scan "(\x7b\x7d).y;" = .ok (tokens ++ [semicolon, Token.endMarker 7]) ∧
      Syntax.parse (tokens ++ [semicolon, Token.endMarker 7]) = .ok (program ⟨0, 7⟩) ∧
        Program.Plain (program ⟨0, 7⟩) ∧
    Program.render (program ⟨0, 6⟩) = Program.render (program ⟨0, 7⟩) ∧
      Program.shape (program ⟨0, 6⟩) = Program.shape (program ⟨0, 7⟩) ∧
        (parseSource (Program.render (program ⟨0, 6⟩))).toBool = false := by
  intro tokens semicolon program
  have scanned : Token.scan "(\x7b\x7d).y" = .ok (tokens ++ [Token.endMarker 6]) := by
    decide +kernel
  have scanned' : Token.scan "(\x7b\x7d).y;" = .ok (tokens ++ [semicolon, Token.endMarker 7]) := by
    decide +kernel
  have parsed : Syntax.parse (tokens ++ [Token.endMarker 6]) = .ok (program ⟨0, 6⟩) := rfl
  have parsed' : Syntax.parse (tokens ++ [semicolon, Token.endMarker 7]) = .ok (program ⟨0, 7⟩) :=
    rfl
  have plain : ∀ whole, Program.Plain (program whole) := by
    rintro whole node ⟨s, member, holds⟩
    obtain rfl := List.mem_singleton.mp member
    have inner : (Node.expr (.object [] ⟨1, 3⟩)).Throughout Node.Plain :=
      Node.throughout_of trivial fun _ child => by cases child with | property member => cases member
    have outer : (Node.expr (.member (.object [] ⟨1, 3⟩) "y" ⟨1, 6⟩)).Throughout Node.Plain :=
      Node.throughout_of trivial fun _ child => by cases child; exact inner
    exact Node.throughout_of trivial (fun _ child => by cases child; exact outer) node holds
  have same : Program.render (program ⟨0, 6⟩) = Program.render (program ⟨0, 7⟩) := rfl
  exact ⟨scanned, parsed, plain _, scanned', parsed', plain _, same,
    render_unambiguous scanned parsed (plain _) scanned' parsed' (plain _) same,
    by decide +kernel⟩

end Scriptlet
