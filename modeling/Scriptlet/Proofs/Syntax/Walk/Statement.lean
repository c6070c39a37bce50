import Scriptlet.Proofs.Syntax.Walk.Expression

/-!
# Walks over statements

Each walk over a construct of statements follows the parser of that construct, given walks over
single statements that follow with fewer tokens to come. A walk over a declaration, a function or a
conditional begins with a token that is known (`Runs.keyword`).
-/
namespace Scriptlet

namespace Syntax

namespace Walk

variable {n limit : Nat} {t : Layout} {c : Cursor} {token : Token} {rest : List Token}

theorem follows_parameter (enough : n < limit) :
    Follows t 0 n (parameter limit) Parse.parameter := by
  apply ((follows_expression enough).weaken (by omega)).bind
  intro e
  cases e with
  | name => exact follows_pure _
  | _ => exact follows_fail _ (by simp)

theorem follows_condition (enough : n < limit) (clause : Clause) :
    Follows t 1 n (condition limit clause) (Parse.condition clause) := by
  apply (follows_expect _).bind_fewer
  intro _ m less
  apply (follows_nextIs _).bind
  intro empty
  have read : Follows t 0 m
      (expression limit >>= fun e => expect (.conditionEnd clause) >>= fun _ => pure e)
      (Parse.expression >>= fun e => Parse.expect (.conditionEnd clause) >>= fun _ => pure e) :=
    ((follows_expression (Nat.lt_trans less enough)).weaken (by omega)).bind fun _ =>
      ((follows_expect _).weaken (by omega)).bind fun _ => follows_pure _
  dsimp only
  split
  · exact follows_here_bind (fail _) fun _ => follows_fail_bind _ _ (by simp)
  · exact read

theorem follows_expressionStatement (enough : n < limit) :
    Follows t 1 n (expressionStatement limit) Parse.expressionStatement := by
  let read (start : Span) : Walk Stmt := do
    let value ← expression limit
    let _ ← accept .semicolon
    return .expr value (start.cover (← previousSpan))
  unfold Parse.expressionStatement
  refine follows_here_bind read fun c => ?_
  apply (follows_expression enough).bind_fewer
  intro value m less
  exact (follows_accept _).bind fun _ => follows_lastSpan.bind fun _ => follows_pure _

theorem runs_declaration (enough : n < limit) (bound : c.rest.length ≤ n)
    (here : c.rest = token :: rest) :
    Runs t 1 c (declaration limit) (Parse.declaration (token.kind = .constWord) c) := by
  apply Runs.keyword here bound
  intro m less
  dsimp only
  apply ((follows_expect _).weaken (by omega)).bind
  intro name
  apply follows_accept_bind (by omega)
  · intro k fewer
    apply follows_lastSpan.bind
    intro last
    split
    · exact follows_fail_bind _ _ (by simp)
    · exact follows_pure _
  · apply ((follows_expect _).weaken (by omega)).bind
    intro _
    apply ((follows_expression (Nat.lt_trans less enough)).weaken (by omega)).bind
    intro value
    exact (follows_accept _).bind fun _ => follows_lastSpan.bind fun _ => follows_pure _

theorem tells_blockEnded :
    Tells t c blockEnded (c.rest.head?.all (·.kind = .closeBrace)) := by
  apply (tells_check _).bind
  have at_end := tells_isAtEnd (t := t) (c := c)
  cases ahead : c.rest with
  | nil =>
    rw [ahead] at at_end
    exact at_end
  | cons token rest =>
    rw [List.head?_cons, Option.any_some, Option.all_some]
    cases decide (token.kind = .closeBrace) with
    | true => exact tells_pure true
    | false =>
      rw [ahead] at at_end
      exact at_end

section
variable {p : Walk Stmt} {q : Parse Stmt}

theorem follows_block (enough : n < limit) (inner : ∀ m < n, Follows t 1 m p q) (role : BlockRole) :
    Follows t 1 n (block limit p role) (Parse.block q role) := by
  apply (follows_expect _).bind_fewer
  intro opening m less
  apply (follows_sequenceUntil (Nat.lt_trans less enough) (fun _ => tells_blockEnded)
    (inner m less)).bind
  intro statements
  apply ((follows_expect _).weaken (by omega)).bind
  intro closing
  dsimp only
  split
  · exact follows_fail_bind _ _ (by simp)
  · exact follows_pure _

theorem runs_functionDeclaration (enough : n < limit) (inner : ∀ m < n, Follows t 1 m p q)
    (bound : c.rest.length ≤ n) (here : c.rest = token :: rest) :
    Runs t 1 c (functionDeclaration limit p) (Parse.functionDeclaration q c) := by
  apply Runs.keyword here bound
  intro m less
  have enough' := Nat.lt_trans less enough
  apply ((follows_expect _).weaken (by omega)).bind
  intro name
  apply ((follows_expect _).weaken (by omega)).bind
  intro _
  apply (follows_listUntil enough' _ (follows_parameter enough')).bind
  intro params
  apply ((follows_expect _).weaken (by omega)).bind
  intro _
  have body := follows_block enough' (fun k fewer => inner k (Nat.lt_trans fewer less)) .function
  exact (body.weaken (by omega)).bind fun _ => follows_lastSpan.bind fun _ => follows_pure _

theorem follows_alternatives (enough : n < limit) (inner : ∀ m < n, Follows t 1 m p q) :
    Follows t 0 n (alternatives limit p) (Parse.alternatives q) := by
  refine follows_fix enough ?_ ()
  intro n' le again again' calls _
  apply follows_accept_bind (by omega)
  · intro m less
    have enough' : m < limit := by omega
    apply ((follows_condition enough' _).weaken (by omega)).bind
    intro guard
    have body := follows_block enough' (fun k fewer => inner k (by omega)) (.clause .elseIfClause)
    apply (body.weaken (by omega)).bind
    intro statements
    exact (calls m less ()).bind fun _ => follows_pure _
  · exact follows_pure _

theorem runs_conditional (enough : n < limit) (inner : ∀ m < n, Follows t 1 m p q)
    (bound : c.rest.length ≤ n) (here : c.rest = token :: rest) :
    Runs t 1 c (conditional limit p) (Parse.conditional q c) := by
  apply Runs.keyword here bound
  intro m less
  have enough' := Nat.lt_trans less enough
  have fewer : ∀ k < m, Follows t 1 k p q := fun k below => inner k (Nat.lt_trans below less)
  apply ((follows_condition enough' _).weaken (by omega)).bind
  intro guard
  apply ((follows_block enough' fewer _).weaken (by omega)).bind
  intro body
  apply (follows_alternatives enough' fewer).bind
  intro others
  apply (follows_accept _).bind
  intro more
  dsimp only
  have block : Follows t 0 m (some <$> block limit p .otherwise)
      (some <$> Parse.block q .otherwise) := by
    simp only [map_eq_pure_bind]
    exact ((follows_block enough' fewer _).weaken (by omega)).bind fun _ => follows_pure _
  split
  · exact block.bind fun _ => follows_lastSpan.bind fun _ => follows_pure _
  · exact (follows_pure _).bind fun _ => follows_lastSpan.bind fun _ => follows_pure _

end

theorem follows_statement (enough : n < limit) :
    Follows t 1 n (statement limit) Parse.statement := by
  refine follows_fix enough ?_ ()
  intro n' le again again' calls _ c bound
  apply Runs.traced
  have enough' := Nat.lt_of_le_of_lt le enough
  have inner : ∀ m < n', Follows t 1 m (again ()) (again' ()) := fun m less => calls m less ()
  rw [peek?_bind]
  cases ahead : c.rest with
  | nil =>
    -- At the end the walk looks at the end marker, where the parser sees no token.
    have marker : t.next c = t.marker := by rw [Layout.next, ahead, List.head?_nil, Option.getD_none]
    apply Runs.tell tells_peek
    rw [marker, of_decide_eq_true t.marks]
    exact follows_expressionStatement enough' c bound
  | cons token rest =>
    apply Runs.tell (tells_peek_cons ahead)
    rw [List.head?_cons, Option.map_some]
    have declares := runs_declaration (t := t) enough' bound ahead
    cases kind : token.kind with
    | letWord => simpa only [kind, reduceCtorEq, decide_false] using declares
    | constWord => simpa only [kind, decide_true] using declares
    | fnWord => exact runs_functionDeclaration enough' inner bound ahead
    | ifWord => exact runs_conditional enough' inner bound ahead
    | _ => exact follows_expressionStatement enough' c bound

theorem follows_program (enough : n < limit) :
    Follows t 0 n (program limit) Parse.program := by
  refine follows_sequenceUntil enough (fun c => ?_) (follows_statement enough)
  have ends : c.rest.head?.all (fun _ => false) = c.rest.isEmpty := by
    cases c.rest <;> rfl
  exact ends ▸ tells_isAtEnd

end Walk

end Syntax

end Scriptlet
