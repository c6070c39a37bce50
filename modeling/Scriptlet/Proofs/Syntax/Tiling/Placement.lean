import Scriptlet.Proofs.Syntax.Tiling.Basic

/-!
# How a node lies among the tokens

A node is `Neat` if the spans of its parts are nested in its own, and if, for a statement, its span
is that of the tokens that spell it, and its blocks stand between their braces.
-/
namespace Scriptlet

namespace Expr

/-- The spans of what stands directly in an expression, in order. -/
def inner : Expr → List Span
  | .assign target value _ => [target.span, value.span]
  | .object properties _ => properties.map Property.span
  | .binary _ left right _ => [left.span, right.span]
  | .not operand _ => [operand.span]
  | .call callee args _ => callee.span :: args.map span
  | .member whole _ _ => [whole.span]
  | .name .. | .number .. | .text .. => []

def properties : Expr → List Property
  | .object properties _ => properties
  | _ => []

/-- The parts of an expression are nested in it, and the values of its properties in these. -/
structure Tidy (e : Expr) : Prop where
  nests : e.span.Nests e.inner
  values : ∀ p ∈ e.properties, p.span.Nests [p.value.span]

end Expr

namespace Alternative

/-- The spans of what stands directly in an alternative, in order. -/
def inner (a : Alternative) : List Span := a.condition.span :: a.body.map Stmt.span

end Alternative

namespace Stmt

/-- The spans of what stands directly in a statement, in order. -/
def inner : Stmt → List Span
  | .declare _ _ value _ => value.toList.map Expr.span
  | .function _ _ body _ => body.map span
  | .branch condition body alternatives otherwise _ =>
    condition.span :: (body.map span ++
      (alternatives.flatMap Alternative.inner ++ (otherwise.getD []).map span))
  | .expr value _ => [value.span]

/-- The blocks that stand directly in a statement. -/
def blocks : Stmt → List (List Stmt)
  | .function _ _ body _ => [body]
  | .branch _ body alternatives otherwise _ =>
    body :: (alternatives.map Alternative.body ++ otherwise.toList)
  | .declare .. | .expr .. => []

open Token (Extent lexemes)

/-- Some of the tokens, one behind the other, spell the statement in front of the others, and its
span runs from the first to the last of them. -/
def Placed (tokens : List Token) (s : Stmt) : Prop :=
  ∃ before own after, tokens = before ++ (own ++ after) ∧
    Grammar.Construct.Derives (.statement s.shape) (lexemes own) (lexemes after) ∧
    Extent own s.span

/-- Some of the tokens are two braces and between them what spells the statements of a block, whose
spans lie between the braces one behind the other. -/
def BlockPlaced (tokens : List Token) (block : List Stmt) : Prop :=
  ∃ before opening own closing after,
    tokens = before ++ (opening :: (own ++ (closing :: after))) ∧
    opening.kind = .openBrace ∧ closing.kind = .closeBrace ∧
    Grammar.Construct.Derives (.statements (stmtShapes block)) (lexemes own)
      (lexemes (closing :: after)) ∧
    Span.Nests ⟨opening.span.stop, closing.span.start⟩ (block.map span)

end Stmt

namespace Node

/-- What holds of a node and of all that stand inside of it. -/
def Throughout (P : Node → Prop) (node : Node) : Prop := ∀ part, node.Holds part → P part

def span : Node → Span
  | .expr e => e.span
  | .stmt s => s.span

/-- How a node lies among tokens. -/
def Neat (tokens : List Token) : Node → Prop
  | .expr e => e.Tidy
  | .stmt s => s.Placed tokens ∧ s.span.Nests s.inner ∧
      ∀ block ∈ s.blocks, Stmt.BlockPlaced tokens block

variable {P : Node → Prop} {node : Node} {tokens : List Token} {e : Expr}

theorem throughout_of (own : P node) (parts : ∀ part, node.Child part → part.Throughout P) :
    node.Throughout P := by
  intro part holds
  rcases holds.cases_head with rfl | ⟨child, is_child, further⟩
  · exact own
  · exact parts child is_child part further

/-- An expression lies inside of the node in which it stands. -/
theorem Neat.child_inside (h : node.Neat tokens) (child : node.Child (.expr e)) :
    e.span.Nonempty ∧ e.span.Inside node.span := by
  cases child with
  | @property properties span p member =>
    have value := (h.values p member).of_mem List.mem_cons_self
    have whole := h.nests.inside p.span (List.mem_map_of_mem member)
    exact ⟨value.1, value.2.trans whole⟩
  | target => exact h.nests.of_mem List.mem_cons_self
  | assigned => exact h.nests.of_mem (List.mem_cons_of_mem _ List.mem_cons_self)
  | left => exact h.nests.of_mem List.mem_cons_self
  | right => exact h.nests.of_mem (List.mem_cons_of_mem _ List.mem_cons_self)
  | operand => exact h.nests.of_mem List.mem_cons_self
  | callee => exact h.nests.of_mem List.mem_cons_self
  | arg member => exact h.nests.of_mem (List.mem_cons_of_mem _ (List.mem_map_of_mem member))
  | object => exact h.nests.of_mem List.mem_cons_self
  | initializer => exact h.2.1.of_mem List.mem_cons_self
  | condition => exact h.2.1.of_mem List.mem_cons_self
  | value => exact h.2.1.of_mem List.mem_cons_self
  | guard other =>
    refine h.2.1.of_mem (List.mem_cons_of_mem _ (List.mem_append_right _ ?_))
    exact List.mem_append_left _ (List.mem_flatMap.mpr ⟨_, other, List.mem_cons_self⟩)

end Node

end Scriptlet
