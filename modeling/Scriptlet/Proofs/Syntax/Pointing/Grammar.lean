import Scriptlet.Proofs.Syntax.Pointing.Rules
import Scriptlet.Syntax.Parser

/-!
# Where the grammar points

One lemma for each construct: it points where `Points` allows, for any class of spans that covering
does not lead out of. Those of expressions take it for whole expressions as given, those of
statements for single statements.
-/
namespace Scriptlet

/-- The span of an expression is of some class. -/
abbrev Expr.At (edge : Span → Prop) (e : Expr) : Prop := edge e.span

namespace Syntax

namespace Parse

/-- Whatever covers two spans of a class belongs to it. -/
def CoverClosed (edge : Span → Prop) : Prop := ∀ a b, edge a → edge b → edge (a.cover b)

section
variable {edge : Span → Prop} {last : Option Token}

/-- A parser of expressions with spans of a class. -/
abbrev PointsExpr (edge : Span → Prop) (last : Option Token) (p : Parse Expr) : Prop :=
  Points edge last (Expr.At edge) p

/-- A parser of which only the faults and what it reads matter. -/
abbrev PointsAny {α : Type} (edge : Span → Prop) (last : Option Token) (p : Parse α) : Prop :=
  Points edge last (fun _ => True) p

theorem points_requireOperand {operator : Token} (at_edge : edge operator.span) :
    PointsAny edge last (requireOperand operator) := by
  apply points_peek.bind
  intro next _
  split
  · exact points_fail (.edge at_edge)
  · exact points_pure trivial

variable (closed : CoverClosed edge)
include closed

section
variable {f : Parse Expr} (inner : PointsExpr edge last f)
include inner

theorem points_group {opening : Token} (at_edge : edge opening.span) :
    PointsExpr edge last (group f opening) := by
  apply (points_nextIs _).bind
  intro empty _
  have read : PointsExpr edge last (f >>= fun e => expect .groupEnd >>= fun _ => pure e) :=
    inner.bind fun e found => (points_expect _).bind fun _ _ => points_pure found
  dsimp only
  split
  · apply points_get.bind
    intro before grounded
    exact points_fail_bind (.edge (closed _ _ at_edge grounded.here))
  · exact read

theorem points_primary : PointsExpr edge last (primary f) := by
  apply (points_take _).bind
  intro taken at_edge
  cases taken with
  | none => exact points_get.bind fun _ grounded => points_fail (.edge grounded.finish)
  | some token =>
    have at_edge := at_edge token rfl
    dsimp only
    cases token.kind with
    | name | text => exact points_pure at_edge
    | number =>
      dsimp only
      split
      · exact points_pure at_edge
      · exact points_fail (.edge at_edge)
    | openParen => exact points_group closed inner at_edge
    | _ => exact points_fail (.edge at_edge)

omit inner in
theorem points_members {object : Expr} (at_edge : object.At edge) :
    PointsExpr edge last (members object) := by
  refine points_fix (fun again calls object found => ?_) at_edge
  apply (points_accept _).bind
  intro more _
  split
  · apply (points_expect _).bind
    intro property named
    exact calls _ (closed _ _ found named)
  · exact points_pure found

theorem points_calls {callee : Expr} (at_edge : callee.At edge) :
    PointsExpr edge last (calls f callee) := by
  refine points_fix (fun again calls callee found => ?_) at_edge
  apply (points_accept _).bind
  intro more _
  split
  · apply (points_listUntil _ inner).bind
    intro args _
    apply (points_expect _).bind
    intro closing ends
    exact calls _ (closed _ _ found ends)
  · exact points_pure found

theorem points_call : PointsExpr edge last (call f) := by
  refine Points.bind ?_ fun _ => points_calls closed inner
  exact (points_primary closed inner).bind fun _ => points_members closed

theorem points_unary : PointsExpr edge last (unary f) := by
  apply points_fix_unit
  intro again call
  apply (points_take _).bind
  intro taken at_edge
  cases taken with
  | none => exact points_call closed inner
  | some operator =>
    have at_edge := at_edge operator rfl
    apply (points_requireOperand at_edge).bind
    intro _ _
    apply call.bind
    intro operand found
    exact points_pure (closed _ _ at_edge found)

omit inner

theorem points_chain {operand : Parse Expr} (operands : PointsExpr edge last operand)
    (level : Level) : PointsExpr edge last (chain operand level) := by
  apply operands.bind
  intro left at_edge
  refine points_fix (fun again calls left found => ?_) at_edge
  apply (points_take _).bind
  intro taken at_sign
  cases taken with
  | none => exact points_pure found
  | some token =>
    have at_sign := at_sign token rfl
    dsimp only
    split
    · apply (points_requireOperand at_sign).bind
      intro _ _
      apply operands.bind
      intro right also
      exact calls _ (closed _ _ found also)
    · exact points_fail (.edge at_sign)

include inner

theorem points_logical : PointsExpr edge last (logical f) := by
  unfold logical Level.all
  simp only [List.foldl_cons, List.foldl_nil]
  have unaries := points_unary closed inner
  have sums := points_chain closed (points_chain closed unaries .multiplicative) .additive
  exact points_chain closed (points_chain closed sums _) _

omit closed in
theorem points_property : PointsAny edge last (property f) := by
  apply (points_expect _).bind
  intro key _
  apply (points_expect _).bind
  intro _ _
  exact inner.bind fun value _ => points_pure trivial

theorem points_objectOrLogical : PointsExpr edge last (objectOrLogical f) := by
  apply (points_take _).bind
  intro taken at_edge
  cases taken with
  | none => exact points_logical closed inner
  | some opening =>
    apply (points_listUntil _ (points_property inner)).bind
    intro properties _
    apply (points_expect _).bind
    intro closing ends
    exact points_pure (closed _ _ (at_edge opening rfl) ends)

theorem points_assignment : PointsExpr edge last (assignment f) := by
  apply (points_objectOrLogical closed inner).bind
  intro target found
  apply (points_take _).bind
  intro taken at_edge
  cases taken with
  | none => exact points_pure found
  | some operator =>
    apply (points_requireOperand (at_edge operator rfl)).bind
    intro _ _
    apply inner.bind
    intro value also
    exact points_pure (closed _ _ found also)

end

theorem points_expression : PointsExpr edge last expression :=
  points_fix_unit fun _ call => points_assignment closed call

theorem points_declaration (constant : Bool) : PointsAny edge last (declaration constant) := by
  apply (points_take _).bind
  intro keyword _
  apply points_lastSpan.bind
  intro start begins
  apply (points_expect _).bind
  intro name _
  apply (points_accept _).bind
  intro ended _
  dsimp only
  split
  · apply points_lastSpan.bind
    intro stop ends
    split
    · exact points_fail_bind (.edge (closed _ _ begins ends))
    · exact points_pure trivial
  · apply (points_expect _).bind
    intro _ _
    apply (points_expression closed).bind
    intro value _
    apply (points_accept _).bind
    intro _ _
    exact points_lastSpan.bind fun stop _ => points_pure trivial

theorem points_parameter : PointsAny edge last parameter := by
  apply (points_expression closed).bind
  intro e at_edge
  cases e with
  | name => exact points_pure trivial
  | _ => exact points_fail (.edge at_edge)

theorem points_condition (clause : Clause) : PointsAny edge last (condition clause) := by
  apply (points_expect _).bind
  intro _ _
  apply (points_nextIs _).bind
  intro empty _
  have read : PointsAny edge last
      (expression >>= fun e => expect (.conditionEnd clause) >>= fun _ => pure e) :=
    (points_expression closed).bind fun e _ => (points_expect _).bind fun _ _ => points_pure trivial
  dsimp only
  split
  · apply points_get.bind
    intro before grounded
    exact points_fail_bind (.edge grounded.here)
  · exact read

theorem points_expressionStatement : PointsAny edge last expressionStatement := by
  apply points_get.bind
  intro before _
  apply (points_expression closed).bind
  intro value _
  apply (points_accept _).bind
  intro _ _
  exact points_lastSpan.bind fun stop _ => points_pure trivial

section
variable {p : Parse Stmt} (inner : PointsAny edge last p)
include inner

theorem points_block (role : BlockRole) : PointsAny edge last (block p role) := by
  apply (points_expect _).bind
  intro opening begins
  apply (points_sequenceUntil _ inner).bind
  intro statements _
  apply (points_expect _).bind
  intro closing ends
  dsimp only
  split
  · exact points_fail_bind (.edge (closed _ _ begins ends))
  · exact points_pure trivial

theorem points_functionDeclaration : PointsAny edge last (functionDeclaration p) := by
  apply (points_take _).bind
  intro _ _
  apply points_lastSpan.bind
  intro start _
  apply (points_expect _).bind
  intro name _
  apply (points_expect _).bind
  intro _ _
  apply (points_listUntil _ (points_parameter closed)).bind
  intro params _
  apply (points_expect _).bind
  intro _ _
  apply (points_block closed inner _).bind
  intro body _
  exact points_lastSpan.bind fun stop _ => points_pure trivial

theorem points_alternatives : PointsAny edge last (alternatives p) := by
  apply points_fix_unit
  intro again call
  apply (points_accept _).bind
  intro more _
  split
  · apply (points_condition closed _).bind
    intro guard _
    apply (points_block closed inner _).bind
    intro body _
    exact call.bind fun others _ => points_pure trivial
  · exact points_pure trivial

theorem points_conditional : PointsAny edge last (conditional p) := by
  apply (points_take _).bind
  intro _ _
  apply points_lastSpan.bind
  intro start _
  apply (points_condition closed _).bind
  intro guard _
  apply (points_block closed inner _).bind
  intro body _
  apply (points_alternatives closed inner).bind
  intro others _
  apply (points_accept _).bind
  intro present _
  have finish (final : Option (List Stmt)) : PointsAny edge last
      (lastSpan >>= fun stop => pure (Stmt.branch guard body others final (start.cover stop))) :=
    points_lastSpan.bind fun stop _ => points_pure trivial
  dsimp only
  split
  · have written : PointsAny edge last (some <$> block p .otherwise) := by
      rw [map_eq_pure_bind]
      exact (points_block closed inner _).bind fun body _ => points_pure trivial
    exact written.bind fun final _ => finish final
  · have absent : PointsAny edge last (pure (none : Option (List Stmt))) := points_pure trivial
    exact absent.bind fun final _ => finish final

end

theorem points_statement : PointsAny edge last statement := by
  apply points_fix_unit
  intro again inner
  apply points_peek.bind
  intro next _
  split
  · exact points_declaration closed false
  · exact points_declaration closed true
  · exact points_functionDeclaration closed inner
  · exact points_conditional closed inner
  · exact points_expressionStatement closed

theorem points_program : PointsAny edge last program :=
  points_sequenceUntil _ (points_statement closed)

end

/-- What is left behind an expression are the last of the tokens that were to come. -/
theorem suffix_of_expression {c d : Cursor} {e : Expr} (read : expression c = .ok (e, d)) :
    d.rest <:+ c.rest := by
  let anywhere : Span → Prop := fun _ => True
  have closed : CoverClosed anywhere := fun _ _ _ _ => trivial
  have grounded : Grounded anywhere (c.previous.toList ++ c.rest).getLast? c :=
    ⟨fun _ _ => trivial, fun _ _ => trivial, trivial, rfl⟩
  have points := points_expression closed c grounded
  rw [read] at points
  cases points with
  | result _ _ left => exact left

end Parse

end Syntax

end Scriptlet
