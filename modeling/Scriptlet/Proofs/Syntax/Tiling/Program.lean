import Mathlib.Data.List.Pairwise
import Mathlib.Tactic.ByContra
import Scriptlet.Proofs.Syntax.Correctness
import Scriptlet.Proofs.Syntax.Tiling.Statement
import Scriptlet.Proofs.Token.Joined

/-!
# Spans nest and tile

What the scanner finds stands in order, and a program is read from all of it. So the statements of a
program share out its tokens, and every node of the program lies among them as it should
(`spans_tile`).
-/
namespace Scriptlet

open Token (Ordered beforeEnd)

namespace Token

/-- The scanner finds tokens one behind the other. -/
theorem ordered_of_scan {source : String} {tokens : List Token} (scanned : scan source = .ok tokens) :
    Ordered (beforeEnd tokens) := by
  obtain ⟨front, rfl, splits⟩ := scan_iff_tokenizes.mp scanned
  rw [splits.beforeEnd_eq _ rfl]
  exact ⟨fun token member => (splits.within token member).2.1, splits.ordered⟩

end Token

namespace Syntax

variable {tokens : List Token} {program : Program}

/-- A program takes all tokens before the end. -/
theorem shares_of_parse (ordered : Ordered (beforeEnd tokens)) (parsed : parse tokens = .ok program) :
    Parse.Shares (beforeEnd tokens) program (beforeEnd tokens) := by
  obtain ⟨d, run⟩ := parse_ok.mp parsed
  have ahead : Token.Ahead (beforeEnd tokens) (Cursor.ofTokens tokens).rest := by
    rw [rest_ofTokens]
    exact ⟨ordered, List.suffix_refl _⟩
  obtain ⟨own, read, shares⟩ := Parse.lays_sequence Parse.lays_statement _ _ _ _ run ahead
  have all := read.rest
  rw [rest_ofTokens, Parse.program_rest run, List.append_nil] at all
  rwa [← all] at shares

/-- One of statements that lie apart from each other has a token in its span. -/
theorem Parse.Shares.exists_unique {own : List Token} (shares : Parse.Shares tokens program own)
    (ordered : Ordered own) {token : Token} (member : token ∈ own) :
    ∃! s, s ∈ program ∧ token.span.Inside s.span := by
  obtain ⟨s, listed, inside⟩ := shares.covered token member
  refine ⟨s, ⟨listed, inside⟩, ?_⟩
  rintro other ⟨listed', inside'⟩
  let Apart (a b : Stmt) : Prop := a.span.Before b.span ∨ b.span.Before a.span
  have symm : Std.Symm Apart := ⟨fun _ _ => Or.symm⟩
  have apart : program.Pairwise Apart := (List.pairwise_map.mp shares.spans.ordered).imp .inl
  have nonempty := ordered.nonempty token member
  by_contra different
  have either : Apart other s := apart.forall listed' listed different
  simp only [Apart, Span.Inside, Span.Before, Span.Nonempty] at inside inside' either nonempty
  omega

end Syntax

/-- **Spans nest and tile.** In a program that was read from a text, every statement runs from the
first to the last of the tokens that spell it, and every block stands between two braces, with its
statements one behind the other between them. The statements of the program are one behind the other
too, and each token is in just one of them. Every expression is inside of the node in which it
stands, and not empty; the parts of a node, also properties, are one behind the other. -/
theorem spans_tile {source : String} {tokens : List Token} {program : Program}
    (scanned : Token.scan source = .ok tokens) (parsed : Syntax.parse tokens = .ok program) :
    (∀ s, program.HasNode (.stmt s) → s.Placed (beforeEnd tokens) ∧
      ∀ block ∈ s.blocks, Stmt.BlockPlaced (beforeEnd tokens) block) ∧
    (program.map Stmt.span).Pairwise Span.Before ∧
    (∀ token ∈ beforeEnd tokens, ∃! s, s ∈ program ∧ token.span.Inside s.span) ∧
    (∀ whole e, program.HasNode whole → whole.Child (.expr e) →
      e.span.Nonempty ∧ e.span.Inside whole.span) ∧
    (∀ s, program.HasNode (.stmt s) → s.span.Nests s.inner) ∧
    ∀ e, program.HasNode (.expr e) → e.span.Nests e.inner ∧
      ∀ p ∈ e.properties, p.span.Nests [p.value.span] := by
  have ordered := Token.ordered_of_scan scanned
  have shares := Syntax.shares_of_parse ordered parsed
  have neat : ∀ node, program.HasNode node → node.Neat (beforeEnd tokens) := by
    rintro node ⟨s, listed, holds⟩
    exact shares.neat s listed node holds
  refine ⟨?_, shares.spans.ordered, fun token => shares.exists_unique ordered, ?_, ?_, ?_⟩
  · exact fun s node => ⟨(neat _ node).1, (neat _ node).2.2⟩
  · exact fun whole e node child => (neat whole node).child_inside child
  · exact fun s node => (neat _ node).2.1
  · exact fun e node => ⟨(neat _ node).nests, (neat _ node).values⟩

/-- Parentheses and a semicolon belong to the statement, but not to the expression in it. -/
theorem spans_tile_parentheses :
    let tokens : List Token :=
      [⟨.openParen, "(", ⟨0, 1⟩⟩, ⟨.name, "x", ⟨1, 2⟩⟩, ⟨.closeParen, ")", ⟨2, 3⟩⟩,
        ⟨.semicolon, ";", ⟨3, 4⟩⟩, ⟨.name, "y", ⟨5, 6⟩⟩, Token.endMarker 6]
    let program : Program :=
      [.expr (.name "x" ⟨1, 2⟩) ⟨0, 4⟩, .expr (.name "y" ⟨5, 6⟩) ⟨5, 6⟩]
    Token.scan "(x); y" = .ok tokens ∧ Syntax.parse tokens = .ok program ∧
      ∃! s, s ∈ program ∧ Span.Inside ⟨2, 3⟩ s.span := by
  intro tokens program
  have scanned : Token.scan "(x); y" = .ok tokens := by decide +kernel
  have parsed : Syntax.parse tokens = .ok program := rfl
  have law := spans_tile scanned parsed
  exact ⟨scanned, parsed, law.2.2.1 ⟨.closeParen, ")", ⟨2, 3⟩⟩ (by decide)⟩

end Scriptlet
