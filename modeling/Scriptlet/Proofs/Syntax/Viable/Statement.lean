import Scriptlet.Proofs.Syntax.Completeness.Statement
import Scriptlet.Proofs.Syntax.Viable.Expression

/-!
# Statements that are cut off

Where a statement is cut off, a token is missed, or what is left of it is a statement too: its last
value is the beginning of the full one, or what may stand behind it does not. Other faults do not
come first: a block is closed before it can be found empty, and a parameter that is only the
beginning of an expression belongs to no function in the full run.
-/
namespace Scriptlet

namespace Syntax

namespace Parse

variable {more : List Token} {n : Nat}

/-! Where no token comes: every statement begins with one. -/

theorem ends_parameter : Ends False parameter := ends_expression.bind_stuck

theorem ends_expressionStatement : Ends False expressionStatement :=
  ends_get.bind fun _ => ends_expression.bind_stuck

/-! Where the full run goes on. -/

/-- What is cut off behind a name is no name in the full run, and so no parameter. -/
theorem viable_parameter : Viable more n (fun _ => False) parameter := by
  unfold parameter
  refine viable_expression.bind steady_expression (fun e m le => ?_) ?_
  · split
    · exact viable_pure
    · exact viable_fail
  · intro e compound d r d' done
    split at done
    · exact absurd rfl (compound _ _)
    · exact absurd done fail_ne_ok

theorem viable_condition (clause : Clause) :
    Viable more n (fun _ => False) (condition clause) := by
  unfold condition
  refine (viable_expect _).bind_closed (fun _ => agree_expect _) fun _ m le => ?_
  refine viable_nextIs_bind (fun empty => ?_) ends_expression.bind_stuck
  cases empty with
  | true => exact viable_get_fail
  | false =>
    refine viable_expression.bind steady_expression (fun e l le' => ?_) ?_
    · exact (viable_expect _).bind_closed (fun _ => agree_expect _) fun _ _ _ => viable_pure
    · exact fun _ _ _ _ _ _ _ => (ends_expect _).bind_stuck

/-- The place of the last token is taken down. -/
theorem ends_placed {α : Type} (made : Span → α) :
    Ends True (lastSpan >>= fun last => pure (made last)) :=
  ends_lastSpan.bind fun _ => ends_pure trivial

theorem viable_placed {α : Type} (made : Span → α) :
    Viable more n (fun _ => True) (lastSpan >>= fun last => pure (made last)) :=
  viable_lastSpan.bind_open (fun _ => agree_lastSpan) (fun _ _ _ => viable_pure)
    fun _ => ends_pure trivial

/-- Before that, a semicolon may follow. -/
theorem ends_closing {α : Type} (made : Span → α) :
    Ends True (accept .semicolon >>= fun _ => lastSpan >>= fun last => pure (made last)) :=
  ends_accept_bind (ends_placed made)

theorem viable_closing {α : Type} (made : Span → α) :
    Viable more n (fun _ => True)
      (accept .semicolon >>= fun _ => lastSpan >>= fun last => pure (made last)) :=
  (viable_accept _).bind_open (fun _ => agree_accept _) (fun _ _ _ => viable_placed made)
    fun _ => ends_placed made

/-- The word that a statement begins with, and its place. Something has to follow. -/
theorem viable_keyword_bind {α : Type} {f : Option Token → Span → Parse α}
    (next : ∀ keyword start, ∀ m ≤ n, Viable more m (fun _ => True) (f keyword start))
    (stuck : ∀ keyword start, Ends False (f keyword start)) :
    Viable more n (fun _ => True)
      (take? (fun _ => true) >>= fun keyword => lastSpan >>= f keyword) := by
  refine (viable_take _).bind_open (fun _ => agree_take _) (fun keyword m le => ?_) fun keyword => ?_
  · exact viable_lastSpan.bind_open (fun _ => agree_lastSpan)
      (fun start l le' => next keyword start l (by omega))
      fun start => (stuck keyword start).imp False.elim
  · exact ends_lastSpan.bind fun start => (stuck keyword start).imp False.elim

theorem viable_declaration (constant : Bool) :
    Viable more n (fun _ => True) (declaration constant) := by
  unfold declaration
  refine viable_keyword_bind (fun keyword start l le => ?_) fun _ _ => (ends_expect _).bind_stuck
  refine (viable_expect _).bind_closed (fun _ => agree_expect _) fun name i less => ?_
  refine viable_accept_bind (fun _ _ => ?_) ?_ fun _ _ _ _ => (ends_expect _).bind_stuck
  · -- A constant without a value fails in the full run, so none is left of one that succeeds.
    refine viable_lastSpan.bind (fun _ => agree_lastSpan) (fun last _ _ => ?_) ?_
    · dsimp only
      split
      · exact viable_fail_bind
      · exact viable_pure
    · intro last _ d r d' done a
      cases constant with
      | true => exact absurd done fail_bind_ne_ok
      | false => exact ends_pure trivial
  · refine (viable_expect _).bind_closed (fun _ => agree_expect _) fun _ _ _ => ?_
    exact viable_expression.bind_open steady_expression (fun _ _ _ => viable_closing _)
      fun _ => ends_closing _

theorem viable_expressionStatement : Viable more n (fun _ => True) expressionStatement := by
  unfold expressionStatement
  have read : ∀ start : Span, Viable more n (fun _ => True)
      (expression >>= fun value => accept .semicolon >>= fun _ => lastSpan >>= fun last =>
        pure (Stmt.expr value (start.cover last))) := fun start =>
    viable_expression.bind_open steady_expression (fun _ _ _ => viable_closing _)
      fun _ => ends_closing _
  exact viable_here_bind read fun _ => ends_expression.bind_stuck

section
variable (inner : ∀ m < n, Viable more m (fun _ => True) statement)
include inner

theorem viable_block (role : BlockRole) : Viable more n (fun _ => False) (block statement role) := by
  unfold block
  refine (viable_expect _).bind_closed (fun _ => agree_expect _) fun opening m le => ?_
  refine (viable_sequenceUntil _ (fun _ => agree_statement) fun l le' => inner l (by omega)).bind
    (fun _ => agree_sequenceUntil _ agree_statement) (fun statements l le' => ?_) ?_
  · refine (viable_expect _).bind_closed (fun _ => agree_expect _) fun closing i le'' => ?_
    split
    · exact viable_fail_bind
    · exact viable_pure
  · exact fun _ _ _ _ _ _ _ => (ends_expect _).bind_stuck

theorem viable_functionDeclaration :
    Viable more n (fun _ => True) (functionDeclaration statement) := by
  unfold functionDeclaration
  refine viable_keyword_bind (fun keyword start l le => ?_) fun _ _ => (ends_expect _).bind_stuck
  refine (viable_expect _).bind_closed (fun _ => agree_expect _) fun name i less => ?_
  refine (viable_expect _).bind_closed (fun _ => agree_expect _) fun _ j less' => ?_
  have params : Viable more j (fun _ => True) (listUntil .closeParen parameter) :=
    viable_listUntil _ steady_parameter ends_parameter fun _ _ => viable_parameter
  refine params.bind_open (fun _ => agree_listUntil _ agree_parameter) (fun params' j' le'' => ?_)
    fun _ => (ends_expect _).bind_stuck
  refine (viable_expect _).bind_closed (fun _ => agree_expect _) fun _ i' less'' => ?_
  refine (viable_block (fun l less => inner l (by omega)) _).bind_closed
    (fun _ => agree_block (fun _ _ => agree_statement) _) fun body l' le₃ => ?_
  exact viable_placed _

theorem viable_alternatives : Viable more n (fun _ => True) (alternatives statement) := by
  induction n using Nat.strongRecOn with
  | ind n ih =>
  rw [alternatives_eq]
  refine viable_accept_bind (fun m less => ?_) viable_pure fun _ _ _ _ => ends_pure trivial
  refine (viable_condition _).bind_closed (fun _ => agree_condition _) fun guard l le => ?_
  refine (viable_block (fun i less => inner i (by omega)) _).bind_closed
    (fun _ => agree_block (fun _ _ => agree_statement) _) fun body l' le' => ?_
  refine (ih l' (by omega) fun i less => inner i (by omega)).bind_open
    (fun _ => agree_alternatives fun _ _ => agree_statement) (fun _ _ _ => viable_pure) ?_
  exact fun _ => ends_pure trivial

theorem viable_conditional : Viable more n (fun _ => True) (conditional statement) := by
  unfold conditional
  refine viable_keyword_bind (fun keyword start l le => ?_) fun _ _ =>
    Ends.bind_stuck (ends_expect _).bind_stuck
  refine (viable_condition _).bind_closed (fun _ => agree_condition _) fun guard i less => ?_
  refine (viable_block (fun i less => inner i (by omega)) _).bind_closed
    (fun _ => agree_block (fun _ _ => agree_statement) _) fun body j less' => ?_
  have clauses := viable_alternatives (n := j) fun i less => inner i (by omega)
  refine clauses.bind_open (fun _ => agree_alternatives fun _ _ => agree_statement)
    (fun others l le'' => ?_) fun _ => ends_accept_bind ?_
  · refine viable_accept_bind (fun l' less'' => ?_) ?_ fun _ _ _ _ => ?_
    · simp only [if_true, map_eq_pure_bind, bind_assoc, pure_bind]
      refine (viable_block (fun i less => inner i (by omega)) _).bind_closed
        (fun _ => agree_block (fun _ _ => agree_statement) _) fun _ _ _ => viable_placed _
    · simp only [Bool.false_eq_true, if_false, pure_bind]
      exact viable_placed _
    · simp only [Bool.false_eq_true, if_false, pure_bind]
      exact ends_placed _
  · simp only [Bool.false_eq_true, if_false, pure_bind]
    exact ends_placed _

end

/-- Whole statements. -/
theorem viable_statement : Viable more n (fun _ => True) statement := by
  induction n using Nat.strongRecOn with
  | ind n ih =>
  rw [statement_eq]
  refine viable_peek_bind (fun token => ?_) fun _ => Ends.imp ends_expressionStatement False.elim
  dsimp only [Option.map_some]
  split
  · exact viable_declaration false
  · exact viable_declaration true
  · exact viable_functionDeclaration ih
  · exact viable_conditional ih
  · exact viable_expressionStatement

theorem viable_program : Viable more n (fun _ => True) program :=
  viable_sequenceUntil _ (fun _ => agree_statement) fun _ _ => viable_statement

end Parse

end Syntax

end Scriptlet
