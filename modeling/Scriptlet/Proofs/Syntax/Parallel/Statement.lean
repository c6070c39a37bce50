import Scriptlet.Proofs.Syntax.Completeness.Statement
import Scriptlet.Proofs.Syntax.Parallel.Expression

/-!
# Statements side by side

The parsers of statements, each with itself on the same lexemes in other places. What comes behind a
statement matters where its last expression or its last block could go on.
-/
namespace Scriptlet

namespace Syntax

namespace Parse

theorem expressionStatement_run (c : Cursor) :
    expressionStatement c =
      (expression >>= fun value => accept .semicolon >>= fun _ => lastSpan >>= fun final =>
        pure (.expr value (c.here.cover final))) c := rfl

variable {S : Span → Span → Prop} {last : Token → Prop} {more : List Token} {ends : Prop}
  {seen n : Nat} (moving : Moving S)
include moving

/-- An expression and all that may stand behind it up to the end of a statement. -/
theorem parallel_ending {make make' : Expr → Span → Stmt}
    (whole : Parallel S last more ends seen 1 n (Expr.Moved S S) expression expression)
    (tail : ends → Opens more)
    (alike : ∀ value other s t, value.Moved S S other → S s t →
      (make value s).Moved S S (make' other t)) :
    Parallel S last more ends seen 1 n (Stmt.Moved S S)
      (do
        let value ← expression
        let _ ← accept .semicolon
        return make value (← lastSpan))
      (do
        let value ← expression
        let _ ← accept .semicolon
        return make' value (← lastSpan)) := by
  refine whole.bind fun value other moved m le => ?_
  have finish : ∀ {seen n : Nat}, 0 < seen → Parallel S last more ends seen 0 n (Stmt.Moved S S)
      (lastSpan >>= fun s => pure (make value s)) (lastSpan >>= fun s => pure (make' other s)) :=
    fun known => (parallel_lastSpan moving known).bind fun s t place _ _ =>
      parallel_pure (alike _ _ _ _ moved place)
  exact parallel_accept_bind moving (fun _ end_ => (tail end_).ne_kind (by decide))
    (fun _ _ => finish (by omega)) (finish (by omega))

theorem parallel_declaration (constant : Bool)
    (whole : ∀ m < n, ∀ seen,
      Parallel S last more ends seen 1 m (Expr.Moved S S) expression expression)
    (tail : ends → Opens more) :
    Parallel S last more ends seen 1 n (Stmt.Moved S S) (declaration constant)
      (declaration constant) := by
  unfold declaration
  refine parallel_keyword moving (by omega) (.missing (.declaredName "") none) Cursor.missingSpan
    (by rintro _ ⟨_, _, _⟩ ⟨⟩; rfl) (by rintro _ ⟨_, _, _⟩ ⟨⟩; rfl) ?_
  intro keyword keyword' same start start' place m less
  rw [Option.map_some, Option.map_some, same.text_eq]
  refine (parallel_expect moving _).bind_uncounted fun name name' named i le' => ?_
  simp only [← named.text_eq]
  refine Parallel.weaken ?_ (Nat.zero_le 1)
  refine parallel_accept_bind moving nofun (fun i' less' => ?_) ?_
  · refine (parallel_lastSpan moving (by omega)).bind fun final final' place' _ _ => ?_
    split
    · exact parallel_fail _ _ _
    · exact parallel_pure (.declare .none (moving.cover place place'))
  · refine (parallel_expect moving _).bind_uncounted fun _ _ _ i' less' => ?_
    refine parallel_ending moving (whole i' (by omega) _) tail
      fun value other s t moved place' => ?_
    exact .declare (.some moved) (moving.cover place place')

/-- The place where an expression statement begins is told before a token is read, but only kept if
there is one. -/
theorem parallel_expressionStatement
    (whole : Parallel S last more ends seen 1 n (Expr.Moved S S) expression expression)
    (tail : ends → Opens more) :
    Parallel S last more ends seen 1 n (Stmt.Moved S S) expressionStatement
      expressionStatement := by
  have from_ : ∀ start start', S start start' → Parallel S last more ends seen 1 n (Stmt.Moved S S)
      (expression >>= fun value => accept .semicolon >>= fun _ => lastSpan >>= fun final =>
        pure (.expr value (start.cover final)))
      (expression >>= fun value => accept .semicolon >>= fun _ => lastSpan >>= fun final =>
        pure (.expr value (start'.cover final))) := fun start start' place =>
    parallel_ending moving whole tail fun value other s t moved place' =>
      .expr moved (moving.cover place place')
  have here : ∀ {c c' : Cursor} {token other : Token} {rest others : List Token},
      c.rest = token :: rest → c'.rest = other :: others → token.Moved S other →
        S c.here c'.here := by
    intro c c' token other rest others own own' same
    simp only [Cursor.here, own, own']
    exact same.place
  constructor
  · intro c a d bound done
    obtain ⟨start', place⟩ := moving.total c.here
    exact (from_ _ _ place).reads bound done
  · intro c c' a d bound follows done left
    obtain ⟨start', place⟩ := moving.total c.here
    have some_ := ((from_ _ _ place).reads bound done).1
    obtain ⟨own, -⟩ | ⟨token, rest, other, front, own, own', same, -⟩ := follows_cases follows
    · rw [own, List.length_nil] at some_
      omega
    · exact (from_ _ _ (here own own' same)).ok bound follows done left
  · intro c c' e bound follows failed nothing
    obtain ⟨own, -⟩ | ⟨token, rest, other, front, own, own', same, -⟩ := follows_cases follows
    · have missing : ∀ a d, expression c ≠ .ok (a, d) := by
        intro a d done
        have some_ := (whole.reads bound done).1
        rw [own, List.length_nil] at some_
        omega
      rw [expressionStatement_run, bind_run] at failed
      cases first : expression c with
      | ok result => exact absurd first (missing _ _)
      | error e' =>
        rw [first] at failed
        cases failed
        obtain ⟨span, run⟩ := whole.error bound follows first nothing
        exact ⟨span, by rw [expressionStatement_run, bind_run, run]⟩
    · exact (from_ _ _ (here own own' same)).error bound follows failed nothing

theorem parallel_parameter :
    Parallel S last more False seen 0 n Eq parameter parameter := by
  unfold parameter
  refine (parallel_expression moving).inside.bind_uncounted fun e f moved m le => ?_
  have text := moved.render_eq
  cases moved with
  | name _ => exact parallel_pure rfl
  | _ =>
    simp only [text]
    exact parallel_fail _ _ _

theorem parallel_condition (clause : Clause) :
    Parallel S last more ends seen 1 n (Expr.Moved S S) (condition clause) (condition clause) := by
  unfold condition
  refine (parallel_expect moving _).bind fun _ _ _ m le => ?_
  refine (parallel_nextIs moving _).bind_closed (by omega) fun empty _ same m' le' => ?_
  subst same
  cases empty with
  | true => exact parallel_get_fail (fun _ => .emptyCondition clause) fun _ _ _ => rfl
  | false =>
    refine (parallel_expression moving).inside.bind_closed (by omega) ?_
    intro e f moved l le
    exact (parallel_expect moving _).bind fun _ _ _ _ _ => parallel_pure moved

section
variable (inner : ∀ m < n, ∀ seen,
  Parallel S last more False seen 1 m (Stmt.Moved S S) statement statement)
include inner

theorem parallel_block (role : BlockRole) :
    Parallel S last more ends seen 1 n (MovedStmts S S) (block statement role)
      (block statement role) := by
  unfold block
  refine (parallel_expect moving _).bind fun opening opening' same m le => ?_
  refine (parallel_sequenceUntil moving (fun _ _ same => by rw [same.kind_eq])
    (fun _ => agree_statement) fun l le => inner l (by omega)).bind_closed (by omega) ?_
  intro statements others moved l le
  refine (parallel_expect moving _).bind fun closing closing' same' l' le' => ?_
  cases moved with
  | nil => exact parallel_fail _ _ _
  | cons first rest => exact parallel_pure (.of_forall₂ (.cons first rest))

theorem parallel_functionDeclaration :
    Parallel S last more ends seen 1 n (Stmt.Moved S S) (functionDeclaration statement)
      (functionDeclaration statement) := by
  unfold functionDeclaration
  refine parallel_keyword moving (by omega) (.missing .functionName none) Cursor.missingSpan
    (by rintro _ ⟨_, _, _⟩ ⟨⟩; rfl) (by rintro _ ⟨_, _, _⟩ ⟨⟩; rfl) ?_
  intro _ _ _ start start' place m less
  refine (parallel_expect moving _).bind_uncounted fun name name' named l le => ?_
  rw [← named.text_eq]
  refine (parallel_expect moving _).bind_uncounted fun _ _ _ l' le' => ?_
  refine (parallel_listUntil moving .closeParen steady_parameter
    fun i _ _ => parallel_parameter moving).bind_closed (by omega) fun params others same i le => ?_
  obtain rfl := List.forall₂_eq_eq_eq ▸ same
  refine (parallel_expect moving _).bind fun _ _ _ i' le' => ?_
  refine (parallel_block moving (fun j less => inner j (by omega)) _).bind_uncounted ?_
  intro body body' moved j le
  refine (parallel_lastSpan moving (by omega)).bind fun final final' place' _ _ => ?_
  exact parallel_pure (.function moved (moving.cover place place'))

/-- A further alternative begins with a word of its own. -/
theorem parallel_alternatives (tail : ends → Opens more) :
    Parallel S last more ends seen 0 n (MovedAlternatives S S) (alternatives statement)
      (alternatives statement) := by
  induction n using Nat.strongRecOn generalizing seen with
  | ind n ih =>
  rw [alternatives_eq]
  refine parallel_accept_bind moving (fun _ end_ => (tail end_).ne_kind (by decide))
    (fun m less => ?_) ?_
  · refine (parallel_condition moving _).bind_uncounted fun guard guard' moved l le => ?_
    refine (parallel_block moving (fun i less => inner i (by omega)) _).bind_uncounted ?_
    intro body body' moved' l' le'
    refine (ih l' (by omega) fun i less => inner i (by omega)).bind fun others others' all _ _ => ?_
    exact parallel_pure (.cons (.mk moved moved') all)
  · exact parallel_pure .nil

theorem parallel_conditional
    (tail : ends → Opens more) :
    Parallel S last more ends seen 1 n (Stmt.Moved S S) (conditional statement)
      (conditional statement) := by
  unfold conditional
  refine parallel_keyword moving (by omega) (.missing (.condition .ifClause) none)
    Cursor.missingSpan (by rintro _ ⟨_, _, _⟩ ⟨⟩; rfl) (by rintro _ ⟨_, _, _⟩ ⟨⟩; rfl) ?_
  intro _ _ _ start start' place m less
  refine (parallel_condition moving _).bind_uncounted fun guard guard' moved l le => ?_
  refine (parallel_block moving (fun i less => inner i (by omega)) _).bind_uncounted ?_
  intro body body' moved' l' le'
  refine (parallel_alternatives moving (fun i less => inner i (by omega)) tail).bind ?_
  intro others others' all i le
  refine parallel_accept_bind moving (fun _ end_ => (tail end_).ne_kind (by decide)) ?_ ?_
  · intro j less
    simp only [if_true, map_eq_pure_bind, bind_assoc, pure_bind]
    refine (parallel_block moving (fun i less => inner i (by omega)) _).bind_uncounted ?_
    intro last last' moved₂ j' le₂
    refine (parallel_lastSpan moving (by omega)).bind fun final final' place' _ _ => ?_
    exact parallel_pure (.branchElse moved moved' all moved₂ (moving.cover place place'))
  · simp only [Bool.false_eq_true, if_false, pure_bind]
    refine (parallel_lastSpan moving (by omega)).bind fun final final' place' _ _ => ?_
    exact parallel_pure (.branch moved moved' all (moving.cover place place'))

end

/-- One statement, given those inside of it and the expressions. -/
theorem parallel_statement_of
    (inner : ∀ m < n, ∀ seen,
      Parallel S last more False seen 1 m (Stmt.Moved S S) statement statement)
    (whole : ∀ m ≤ n, ∀ seen,
      Parallel S last more ends seen 1 m (Expr.Moved S S) expression expression)
    (tail : ends → Opens more) :
    Parallel S last more ends seen 1 n (Stmt.Moved S S) statement statement := by
  rw [statement_eq]
  refine (parallel_peek moving).bind_closed (by omega) fun next other same m le => ?_
  have kinds : next.map Token.kind = other.map Token.kind := by
    cases same with
    | none => rfl
    | some same => rw [Option.map_some, Option.map_some, same.kind_eq]
  rw [← kinds]
  split
  · exact parallel_declaration moving _ (fun l less => whole l (by omega)) tail
  · exact parallel_declaration moving _ (fun l less => whole l (by omega)) tail
  · exact parallel_functionDeclaration moving fun l less => inner l (by omega)
  · exact parallel_conditional moving (fun l less => inner l (by omega)) tail
  · exact parallel_expressionStatement moving (whole m (by omega) _) tail

theorem parallel_statement_inside :
    Parallel S last more False seen 1 n (Stmt.Moved S S) statement statement := by
  induction n using Nat.strongRecOn generalizing seen with
  | ind n ih =>
  exact parallel_statement_of moving (fun m less seen => ih m less)
    (fun _ _ _ => (parallel_expression moving).inside) nofun

theorem parallel_statement
    (whole : ∀ m ≤ n, ∀ seen,
      Parallel S last more ends seen 1 m (Expr.Moved S S) expression expression)
    (tail : ends → Opens more) :
    Parallel S last more ends seen 1 n (Stmt.Moved S S) statement statement :=
  parallel_statement_of moving (fun _ _ _ => parallel_statement_inside moving) whole tail

/-- Programs, with nothing behind them. -/
theorem parallel_program :
    Parallel S last [] False seen 0 n (MovedStmts S S) program program :=
  (parallel_sequenceUntil moving (fun _ _ _ => rfl) (fun _ => agree_statement)
    fun _ _ _ => parallel_statement_inside moving).imp fun _ _ => .of_forall₂

end Parse

end Syntax

end Scriptlet
