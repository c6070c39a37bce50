import Scriptlet.Proofs.Syntax.Agreement
import Scriptlet.Syntax.Parser

/-!
# The grammar's parsers are their bodies

Every parser that calls itself does what its body does, with itself in place of the call: from
`members_eq` to `statement_eq`, one equation for each. No later proof has to count rounds.
-/
namespace Scriptlet

namespace Syntax

namespace Parse

variable {n : Nat}

theorem agree_requireOperand (operator : Token) :
    Agree 0 n (requireOperand operator) (requireOperand operator) := by
  unfold requireOperand
  apply agree_peek.bind
  intro next
  split
  · exact agree_fail _ _
  · exact agree_pure _

/-! The constructs of expressions, given parsers of whole expressions. -/

section
variable {f g : Parse Expr}

theorem agree_group (inner : Agree 0 n f g) (opening : Token) :
    Agree 0 n (group f opening) (group g opening) := by
  unfold group
  apply (agree_nextIs _).bind
  intro empty
  have read : Agree 0 n (f >>= fun e => expect .groupEnd >>= fun _ => pure e)
      (g >>= fun e => expect .groupEnd >>= fun _ => pure e) :=
    inner.bind fun _ => ((agree_expect _).weaken (by omega)).bind fun _ => agree_pure _
  dsimp only
  split
  · exact agree_get.bind fun _ => (agree_fail _ _).bind fun _ => read
  · exact read

theorem agree_primary (inner : ∀ m < n, Agree 0 m f g) : Agree 1 n (primary f) (primary g) := by
  unfold primary
  apply agree_take_bind (Nat.le_refl 1)
  · intro token m less
    dsimp only
    split
    · exact agree_pure _
    · split
      · exact agree_pure _
      · exact agree_fail _ _
    · exact agree_pure _
    · exact agree_group (inner m less) token
    · exact agree_fail _ _
  · exact agree_get.bind fun _ => agree_fail _ _

theorem members_step {again again' : Expr → Parse Expr}
    (calls : ∀ m < n, ∀ e, Agree 0 m (again e) (again' e)) (object : Expr) :
    Agree 0 n
      (do
        if ← accept .period then
          let property ← expect .memberName
          again (.member object property.text (object.span.cover property.span))
        else return object)
      (do
        if ← accept .period then
          let property ← expect .memberName
          again' (.member object property.text (object.span.cover property.span))
        else return object) := by
  apply agree_accept_bind (by omega)
  · intro m less
    refine ((agree_expect _).bind_fewer ?_).weaken (by omega)
    intro property k fewer
    exact calls k (Nat.lt_trans fewer less) _
  · exact agree_pure _

theorem agree_members (object : Expr) : Agree 0 n (members object) (members object) :=
  agree_fix (fun _ _ _ _ calls => members_step calls) object

theorem members_eq (object : Expr) :
    members object = do
      if ← accept .period then
        let property ← expect .memberName
        members (.member object property.text (object.span.cover property.span))
      else return object :=
  fix_eq 0 (fun _ _ _ calls => members_step calls) object

theorem agree_member (inner : ∀ m < n, Agree 0 m f g) : Agree 1 n (member f) (member g) :=
  (agree_primary inner).bind_fewer fun object _ _ => agree_members object

theorem calls_step (inner : ∀ m < n, Agree 0 m f g) {again again' : Expr → Parse Expr}
    (calls : ∀ m < n, ∀ e, Agree 0 m (again e) (again' e)) (callee : Expr) :
    Agree 0 n
      (do
        if ← accept .openParen then
          let args ← listUntil .closeParen f
          let closing ← expect .argumentsEnd
          again (.call callee args (callee.span.cover closing.span))
        else return callee)
      (do
        if ← accept .openParen then
          let args ← listUntil .closeParen g
          let closing ← expect .argumentsEnd
          again' (.call callee args (callee.span.cover closing.span))
        else return callee) := by
  apply agree_accept_bind (by omega)
  · intro m less
    apply (agree_listUntil _ (inner m less)).bind
    intro args
    refine ((agree_expect _).bind_fewer ?_).weaken (by omega)
    intro closing k fewer
    exact calls k (Nat.lt_trans fewer less) _
  · exact agree_pure _

theorem agree_calls (inner : ∀ m < n, Agree 0 m f g) (callee : Expr) :
    Agree 0 n (calls f callee) (calls g callee) :=
  agree_fix (fun _ le _ _ again =>
    calls_step (fun m less => inner m (Nat.lt_of_lt_of_le less le)) again) callee

theorem agree_call (inner : ∀ m < n, Agree 0 m f g) : Agree 1 n (call f) (call g) :=
  (agree_member inner).bind_fewer fun callee _ less =>
    agree_calls (fun k fewer => inner k (Nat.lt_trans fewer less)) callee

theorem unary_step (inner : ∀ m < n, Agree 0 m f g) {again again' : Unit → Parse Expr}
    (calls : ∀ m < n, ∀ u, Agree 1 m (again u) (again' u)) :
    Agree 1 n
      (do
        match ← take? (·.kind = .negation) with
        | some operator =>
          requireOperand operator
          let operand ← again ()
          return .not operand (operator.span.cover operand.span)
        | none => call f)
      (do
        match ← take? (·.kind = .negation) with
        | some operator =>
          requireOperand operator
          let operand ← again' ()
          return .not operand (operator.span.cover operand.span)
        | none => call g) := by
  apply agree_take_bind (Nat.le_refl 1)
  · intro operator m less
    apply (agree_requireOperand operator).bind
    intro _
    exact ((calls m less ()).weaken (by omega)).bind fun _ => agree_pure _
  · exact agree_call inner

theorem agree_unary (inner : ∀ m < n, Agree 0 m f g) : Agree 1 n (unary f) (unary g) :=
  agree_fix (fun _ le _ _ again _ =>
    unary_step (fun m less => inner m (Nat.lt_of_lt_of_le less le)) again) ()

theorem operations_step {operand operand' : Parse Expr} (operands : Agree 1 n operand operand')
    (level : Level) {again again' : Expr → Parse Expr}
    (calls : ∀ m < n, ∀ e, Agree 0 m (again e) (again' e)) (left : Expr) :
    Agree 0 n
      (do
        match ← take? level.continuedBy with
        | some token =>
          match level.operator? token.text with
          | some op =>
            requireOperand token
            let right ← operand
            again (.binary op left right (left.span.cover right.span))
          | none => fail (.unknownOperator token.text) token.span
        | none => return left)
      (do
        match ← take? level.continuedBy with
        | some token =>
          match level.operator? token.text with
          | some op =>
            requireOperand token
            let right ← operand'
            again' (.binary op left right (left.span.cover right.span))
          | none => fail (.unknownOperator token.text) token.span
        | none => return left) := by
  apply agree_take_bind (by omega)
  · intro token m less
    dsimp only
    split
    · apply (agree_requireOperand token).bind
      intro _
      apply ((operands.mono (Nat.le_of_lt less)).weaken (by omega)).bind
      intro right
      exact calls m less _
    · exact agree_fail _ _
  · exact agree_pure _

theorem agree_chain {operand operand' : Parse Expr} (operands : Agree 1 n operand operand')
    (level : Level) : Agree 1 n (chain operand level) (chain operand' level) := by
  apply operands.bind_fewer
  intro left m less
  refine agree_fix (fun n' le _ _ calls => ?_) left
  exact operations_step (operands.mono (Nat.le_trans le (Nat.le_of_lt less))) level calls

theorem operations_eq {operand : Parse Expr} (operands : Steady 1 operand) (level : Level)
    (left : Expr) :
    operations operand level left = do
      match ← take? level.continuedBy with
      | some token =>
        match level.operator? token.text with
        | some op =>
          requireOperand token
          let right ← operand
          operations operand level (.binary op left right (left.span.cover right.span))
        | none => fail (.unknownOperator token.text) token.span
      | none => return left :=
  fix_eq 0 (fun n _ _ calls => operations_step (operands n) level calls) left

theorem agree_logical (inner : ∀ m < n, Agree 0 m f g) : Agree 1 n (logical f) (logical g) :=
  agree_chain (agree_chain (agree_chain (agree_chain (agree_unary inner) _) _) _) _

theorem agree_property (inner : Agree 0 n f g) : Agree 0 n (property f) (property g) := by
  apply ((agree_expect _).weaken (by omega)).bind
  intro key
  apply ((agree_expect _).weaken (by omega)).bind
  intro _
  exact inner.bind fun _ => agree_pure _

theorem agree_objectOrLogical (inner : ∀ m < n, Agree 0 m f g) :
    Agree 1 n (objectOrLogical f) (objectOrLogical g) := by
  apply agree_take_bind (Nat.le_refl 1)
  · intro opening m less
    apply (agree_listUntil _ (agree_property (inner m less))).bind
    intro properties
    exact ((agree_expect _).weaken (by omega)).bind fun _ => agree_pure _
  · exact agree_logical inner

/-- The right side of an assignment is behind the sign, so that here too whole expressions are read
with fewer tokens to come. -/
theorem agree_assignment (inner : ∀ m < n, Agree 0 m f g) :
    Agree 1 n (assignment f) (assignment g) := by
  apply (agree_objectOrLogical inner).bind_fewer
  intro target m less
  apply agree_take_bind (by omega)
  · intro operator k fewer
    apply (agree_requireOperand operator).bind
    intro _
    exact (inner k (Nat.lt_trans fewer less)).bind fun _ => agree_pure _
  · exact agree_pure _

theorem assignment_step {again again' : Unit → Parse Expr}
    (calls : ∀ m < n, ∀ u, Agree 1 m (again u) (again' u)) :
    Agree 1 n (assignment (again ())) (assignment (again' ())) :=
  agree_assignment fun m less => (calls m less ()).weaken (by omega)

end

theorem agree_expression : Agree 1 n expression expression :=
  agree_fix (fun _ _ _ _ calls _ => assignment_step calls) ()

theorem agree_expression_fewer : ∀ m < n, Agree 0 m expression expression :=
  fun _ _ => agree_expression.weaken (by omega)

theorem expression_eq : expression = assignment expression :=
  fix_eq 1 (fun _ _ _ calls _ => assignment_step calls) ()

theorem calls_eq (callee : Expr) :
    calls expression callee = do
      if ← accept .openParen then
        let args ← listUntil .closeParen expression
        let closing ← expect .argumentsEnd
        calls expression (.call callee args (callee.span.cover closing.span))
      else return callee :=
  fix_eq 0 (fun _ _ _ again => calls_step agree_expression_fewer again) callee

theorem unary_eq :
    unary expression = (do
      match ← take? (·.kind = .negation) with
      | some operator =>
        requireOperand operator
        let operand ← unary expression
        return .not operand (operator.span.cover operand.span)
      | none => call expression) :=
  fix_eq 1 (fun _ _ _ again _ => unary_step agree_expression_fewer again) ()

/-! The constructs of statements, given parsers of single statements. -/

theorem agree_declaration (constant : Bool) :
    Agree 1 n (declaration constant) (declaration constant) := by
  unfold declaration
  apply (agree_take _).bind
  intro keyword
  apply agree_lastSpan.bind
  intro start
  apply (agree_expect _).bind_fewer
  intro name m less
  dsimp only
  apply agree_accept_bind (by omega)
  · intro k fewer
    apply agree_lastSpan.bind
    intro last
    split
    · exact (agree_fail _ _).bind fun _ => agree_pure _
    · exact agree_pure _
  · apply ((agree_expect _).weaken (by omega)).bind
    intro _
    apply (agree_expression.weaken (by omega)).bind
    intro value
    exact (agree_accept _).bind fun _ => agree_lastSpan.bind fun _ => agree_pure _

theorem agree_expressionStatement : Agree 1 n expressionStatement expressionStatement := by
  unfold expressionStatement
  apply agree_get.bind
  intro c
  apply agree_expression.bind_fewer
  intro value m less
  exact (agree_accept _).bind fun _ => agree_lastSpan.bind fun _ => agree_pure _

theorem agree_condition (clause : Clause) : Agree 1 n (condition clause) (condition clause) := by
  unfold condition
  apply (agree_expect _).bind_fewer
  intro _ m less
  apply (agree_nextIs _).bind
  intro empty
  have read : Agree 0 m
      (expression >>= fun e => expect (.conditionEnd clause) >>= fun _ => pure e)
      (expression >>= fun e => expect (.conditionEnd clause) >>= fun _ => pure e) :=
    (agree_expression.weaken (by omega)).bind fun _ =>
      ((agree_expect _).weaken (by omega)).bind fun _ => agree_pure _
  dsimp only
  split
  · exact agree_get.bind fun _ => (agree_fail _ _).bind fun _ => read
  · exact read

theorem agree_parameter : Agree 0 n parameter parameter := by
  unfold parameter
  apply (agree_expression.weaken (by omega)).bind
  intro e
  split
  · exact agree_pure _
  · exact agree_fail _ _

section
variable {s t : Parse Stmt}

theorem agree_block (inner : ∀ m < n, Agree 1 m s t) (role : BlockRole) :
    Agree 1 n (block s role) (block t role) := by
  unfold block
  apply (agree_expect _).bind_fewer
  intro opening m less
  apply (agree_sequenceUntil _ (inner m less)).bind
  intro statements
  apply ((agree_expect _).weaken (by omega)).bind
  intro closing
  dsimp only
  split
  · exact (agree_fail _ _).bind fun _ => agree_pure _
  · exact agree_pure _

theorem agree_functionDeclaration (inner : ∀ m < n, Agree 1 m s t) :
    Agree 1 n (functionDeclaration s) (functionDeclaration t) := by
  unfold functionDeclaration
  apply (agree_take _).bind
  intro _
  apply agree_lastSpan.bind
  intro start
  apply (agree_expect _).bind_fewer
  intro name m less
  apply ((agree_expect _).weaken (by omega)).bind
  intro _
  apply (agree_listUntil _ agree_parameter).bind
  intro params
  apply ((agree_expect _).weaken (by omega)).bind
  intro _
  have body := agree_block (fun k fewer => inner k (Nat.lt_trans fewer less)) .function
  exact (body.weaken (by omega)).bind fun _ => agree_lastSpan.bind fun _ => agree_pure _

theorem alternatives_step (inner : ∀ m < n, Agree 1 m s t)
    {again again' : Unit → Parse (List Alternative)}
    (calls : ∀ m < n, ∀ u, Agree 0 m (again u) (again' u)) :
    Agree 0 n
      (do
        if ← accept .elseIfWord then
          let guard ← condition .elseIfClause
          let body ← block s (.clause .elseIfClause)
          return .mk guard body :: (← again ())
        else return [])
      (do
        if ← accept .elseIfWord then
          let guard ← condition .elseIfClause
          let body ← block t (.clause .elseIfClause)
          return .mk guard body :: (← again' ())
        else return []) := by
  apply agree_accept_bind (by omega)
  · intro m less
    apply ((agree_condition _).weaken (by omega)).bind
    intro guard
    have body := agree_block (fun k fewer => inner k (Nat.lt_trans fewer less))
      (.clause .elseIfClause)
    apply (body.weaken (by omega)).bind
    intro statements
    exact (calls m less ()).bind fun _ => agree_pure _
  · exact agree_pure _

theorem agree_alternatives (inner : ∀ m < n, Agree 1 m s t) :
    Agree 0 n (alternatives s) (alternatives t) :=
  agree_fix (fun _ le _ _ calls _ =>
    alternatives_step (fun m less => inner m (Nat.lt_of_lt_of_le less le)) calls) ()

theorem agree_conditional (inner : ∀ m < n, Agree 1 m s t) :
    Agree 1 n (conditional s) (conditional t) := by
  unfold conditional
  apply (agree_take _).bind
  intro _
  apply agree_lastSpan.bind
  intro start
  apply (agree_condition _).bind_fewer
  intro guard m less
  have fewer : ∀ k < m, Agree 1 k s t := fun k below => inner k (Nat.lt_trans below less)
  apply ((agree_block fewer _).weaken (by omega)).bind
  intro body
  apply (agree_alternatives fewer).bind
  intro others
  apply (agree_accept _).bind
  intro more
  dsimp only
  have block : Agree 0 m (some <$> block s .otherwise) (some <$> block t .otherwise) := by
    simp only [map_eq_pure_bind]
    exact ((agree_block fewer _).weaken (by omega)).bind fun _ => agree_pure _
  split
  · exact block.bind fun _ => agree_lastSpan.bind fun _ => agree_pure _
  · exact (agree_pure _).bind fun _ => agree_lastSpan.bind fun _ => agree_pure _

end

theorem statement_step {again again' : Unit → Parse Stmt}
    (calls : ∀ m < n, ∀ u, Agree 1 m (again u) (again' u)) :
    Agree 1 n
      (do
        match (← peek?).map Token.kind with
        | some .letWord => declaration false
        | some .constWord => declaration true
        | some .fnWord => functionDeclaration (again ())
        | some .ifWord => conditional (again ())
        | _ => expressionStatement)
      (do
        match (← peek?).map Token.kind with
        | some .letWord => declaration false
        | some .constWord => declaration true
        | some .fnWord => functionDeclaration (again' ())
        | some .ifWord => conditional (again' ())
        | _ => expressionStatement) := by
  apply agree_peek.bind
  intro next
  split
  · exact agree_declaration false
  · exact agree_declaration true
  · exact agree_functionDeclaration fun m less => calls m less ()
  · exact agree_conditional fun m less => calls m less ()
  · exact agree_expressionStatement

theorem agree_statement : Agree 1 n statement statement :=
  agree_fix (fun _ _ _ _ calls _ => statement_step calls) ()

theorem statement_eq :
    statement = (do
      match (← peek?).map Token.kind with
      | some .letWord => declaration false
      | some .constWord => declaration true
      | some .fnWord => functionDeclaration statement
      | some .ifWord => conditional statement
      | _ => expressionStatement) :=
  fix_eq 1 (fun _ _ _ calls _ => statement_step calls) ()

theorem alternatives_eq :
    alternatives statement = do
      if ← accept .elseIfWord then
        let guard ← condition .elseIfClause
        let body ← block statement (.clause .elseIfClause)
        return .mk guard body :: (← alternatives statement)
      else return [] :=
  fix_eq 0 (fun _ _ _ calls _ => alternatives_step (fun _ _ => agree_statement) calls) ()

end Parse

end Syntax

end Scriptlet
