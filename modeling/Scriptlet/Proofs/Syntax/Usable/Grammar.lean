import Scriptlet.Proofs.Syntax.Usable.Rules
import Scriptlet.Proofs.Syntax.Usable.Tokens

/-!
# The grammar on tokens that it can use

On tokens of a source, no parser meets an operator or a number that it does not know, and the
literals of what it gives stand for what is at their places. One lemma for each construct: those of
expressions take it for whole expressions as given, those of statements for single statements.
-/
namespace Scriptlet

variable {source : List Char}

/-- Every literal in an expression stands for what is at its place. -/
abbrev Expr.Faithful (source : List Char) (e : Expr) : Prop :=
  (Node.expr e).Throughout (Node.Literal source)

abbrev Property.Faithful (source : List Char) (p : Property) : Prop := p.value.Faithful source

abbrev Stmt.Faithful (source : List Char) (s : Stmt) : Prop :=
  (Node.stmt s).Throughout (Node.Literal source)

abbrev Alternative.Faithful (source : List Char) (a : Alternative) : Prop :=
  a.condition.Faithful source ∧ ∀ s ∈ a.body, s.Faithful source

namespace Syntax

namespace Parse

open Token (Usable)

section
variable {f : Parse Expr} (inner : Ensures (Usable source) (Expr.Faithful source) f)

theorem ensures_requireOperand (operator : Token) :
    Ensures (Usable source) (fun _ => True) (requireOperand operator) := by
  apply ensures_peek.bind
  intro next _
  split
  · exact ensures_fail _ _ trivial
  · exact ensures_pure trivial

include inner

theorem ensures_group (opening : Token) :
    Ensures (Usable source) (Expr.Faithful source) (group f opening) := by
  apply (ensures_nextIs _).bind
  intro empty _
  have read : Ensures (Usable source) (Expr.Faithful source)
      (f >>= fun e => expect .groupEnd >>= fun _ => pure e) :=
    inner.bind fun e faithful => (ensures_expect _).bind fun _ _ => ensures_pure faithful
  dsimp only
  split
  · apply ensures_get.bind
    intro before _
    refine ensures_fail_bind _ _ ?_ _
    trivial
  · exact read

/-- The only place where literals are made. -/
theorem ensures_primary : Ensures (Usable source) (Expr.Faithful source) (primary f) := by
  apply (ensures_take _).bind
  intro taken usable
  cases taken with
  | none => exact ensures_get.bind fun _ _ => ensures_fail _ _ trivial
  | some token =>
    obtain ⟨usable, -⟩ := usable token rfl
    dsimp only
    cases kind : token.kind with
    | name => exact ensures_pure (Node.throughout_of trivial nofun)
    | number =>
      obtain ⟨text_eq, digits⟩ := usable.number kind
      have value := Number.ofNumeral?_of_digits digits.1 digits.2
      dsimp only
      rw [text_eq, value]
      exact ensures_pure (Node.throughout_of ⟨digits, value⟩ nofun)
    | text => exact ensures_pure (Node.throughout_of (usable.text kind).2 nofun)
    | openParen => exact ensures_group inner token
    | _ => exact ensures_fail _ _ trivial

omit inner in
theorem ensures_members {object : Expr} (faithful : object.Faithful source) :
    Ensures (Usable source) (Expr.Faithful source) (members object) := by
  refine ensures_fix (fun again calls object faithful => ?_) faithful
  apply (ensures_accept _).bind
  intro more _
  split
  · apply (ensures_expect _).bind
    intro property _
    refine calls _ (Node.throughout_of trivial ?_)
    rintro _ ⟨⟩
    exact faithful
  · exact ensures_pure faithful

theorem ensures_calls {callee : Expr} (faithful : callee.Faithful source) :
    Ensures (Usable source) (Expr.Faithful source) (calls f callee) := by
  refine ensures_fix (fun again calls callee faithful => ?_) faithful
  apply (ensures_accept _).bind
  intro more _
  split
  · apply (ensures_listUntil _ inner).bind
    intro args all
    apply (ensures_expect _).bind
    intro closing _
    refine calls _ (Node.throughout_of trivial ?_)
    intro part child
    cases child with
    | callee => exact faithful
    | arg listed => exact all _ listed
  · exact ensures_pure faithful

theorem ensures_call : Ensures (Usable source) (Expr.Faithful source) (call f) := by
  refine Ensures.bind ?_ fun _ => ensures_calls inner
  exact (ensures_primary inner).bind fun _ => ensures_members

theorem ensures_unary : Ensures (Usable source) (Expr.Faithful source) (unary f) := by
  apply ensures_fix_unit
  intro again call
  apply (ensures_take _).bind
  intro taken _
  cases taken with
  | none => exact ensures_call inner
  | some operator =>
    apply (ensures_requireOperand operator).bind
    intro _ _
    apply call.bind
    intro operand faithful
    refine ensures_pure (Node.throughout_of trivial ?_)
    rintro _ ⟨⟩
    exact faithful

omit inner

/-- A token that continues the chains of a level names an operator of it. -/
theorem operator?_of_continuedBy {token : Token} {level : Level} (usable : token.Usable source)
    (continues : level.continuedBy token = true) : ∃ op, level.operator? token.text = some op := by
  cases level with
  | logical =>
    obtain ⟨op, found⟩ := usable.logical (of_decide_eq_true continues)
    exact ⟨_, found⟩
  | comparison =>
    obtain ⟨op, found⟩ := usable.comparison (of_decide_eq_true continues)
    exact ⟨_, found⟩
  | additive =>
    obtain ⟨kind, -⟩ := Bool.and_eq_true_iff.mp continues
    obtain ⟨⟨op, found⟩, -⟩ := usable.arithmetic (of_decide_eq_true kind)
    exact ⟨_, found _ (.inl rfl)⟩
  | multiplicative =>
    obtain ⟨kind, -⟩ := Bool.and_eq_true_iff.mp continues
    obtain ⟨⟨op, found⟩, -⟩ := usable.arithmetic (of_decide_eq_true kind)
    exact ⟨_, found _ (.inr rfl)⟩

theorem ensures_chain {operand : Parse Expr}
    (operands : Ensures (Usable source) (Expr.Faithful source) operand) (level : Level) :
    Ensures (Usable source) (Expr.Faithful source) (chain operand level) := by
  apply operands.bind
  intro left faithful
  refine ensures_fix (fun again calls left faithful => ?_) faithful
  apply (ensures_take _).bind
  intro taken own
  cases taken with
  | none => exact ensures_pure faithful
  | some token =>
    obtain ⟨usable, continues⟩ := own token rfl
    obtain ⟨op, found⟩ := operator?_of_continuedBy usable continues
    dsimp only
    rw [found]
    apply (ensures_requireOperand token).bind
    intro _ _
    apply operands.bind
    intro right also
    refine calls _ (Node.throughout_of trivial ?_)
    rintro _ (_ | _)
    · exact faithful
    · exact also

include inner

theorem ensures_logical : Ensures (Usable source) (Expr.Faithful source) (logical f) := by
  unfold logical Level.all
  simp only [List.foldl_cons, List.foldl_nil]
  exact ensures_chain (ensures_chain (ensures_chain (ensures_chain (ensures_unary inner) _) _) _) _

theorem ensures_property : Ensures (Usable source) (Property.Faithful source) (property f) := by
  apply (ensures_expect _).bind
  intro key _
  apply (ensures_expect _).bind
  intro _ _
  exact inner.bind fun value faithful => ensures_pure faithful

theorem ensures_objectOrLogical :
    Ensures (Usable source) (Expr.Faithful source) (objectOrLogical f) := by
  apply (ensures_take _).bind
  intro taken _
  cases taken with
  | none => exact ensures_logical inner
  | some opening =>
    apply (ensures_listUntil _ (ensures_property inner)).bind
    intro properties all
    apply (ensures_expect _).bind
    intro closing _
    refine ensures_pure (Node.throughout_of trivial ?_)
    intro part child
    cases child with
    | property listed => exact all _ listed

theorem ensures_assignment : Ensures (Usable source) (Expr.Faithful source) (assignment f) := by
  apply (ensures_objectOrLogical inner).bind
  intro target faithful
  apply (ensures_take _).bind
  intro taken _
  cases taken with
  | none => exact ensures_pure faithful
  | some operator =>
    apply (ensures_requireOperand operator).bind
    intro _ _
    apply inner.bind
    intro value also
    refine ensures_pure (Node.throughout_of trivial ?_)
    rintro _ (_ | _)
    · exact faithful
    · exact also

end

theorem ensures_expression : Ensures (Usable source) (Expr.Faithful source) expression :=
  ensures_fix_unit fun _ call => ensures_assignment call

theorem ensures_declaration (constant : Bool) :
    Ensures (Usable source) (Stmt.Faithful source) (declaration constant) := by
  apply (ensures_take _).bind
  intro keyword _
  apply ensures_lastSpan.bind
  intro start _
  apply (ensures_expect _).bind
  intro name _
  apply (ensures_accept _).bind
  intro ended _
  dsimp only
  split
  · apply ensures_lastSpan.bind
    intro stop _
    split
    · refine ensures_fail_bind _ _ ?_ _
      trivial
    · exact ensures_pure (Node.throughout_of trivial nofun)
  · apply (ensures_expect _).bind
    intro _ _
    apply ensures_expression.bind
    intro value faithful
    apply (ensures_accept _).bind
    intro _ _
    apply ensures_lastSpan.bind
    intro stop _
    refine ensures_pure (Node.throughout_of trivial ?_)
    rintro _ ⟨⟩
    exact faithful

theorem ensures_parameter : Ensures (Usable source) (fun _ => True) parameter := by
  apply ensures_expression.bind
  intro e _
  cases e with
  | name => exact ensures_pure trivial
  | _ => exact ensures_fail _ _ trivial

theorem ensures_condition (clause : Clause) :
    Ensures (Usable source) (Expr.Faithful source) (condition clause) := by
  apply (ensures_expect _).bind
  intro _ _
  apply (ensures_nextIs _).bind
  intro empty _
  have read : Ensures (Usable source) (Expr.Faithful source)
      (expression >>= fun e => expect (.conditionEnd clause) >>= fun _ => pure e) :=
    ensures_expression.bind fun e faithful =>
      (ensures_expect _).bind fun _ _ => ensures_pure faithful
  dsimp only
  split
  · apply ensures_get.bind
    intro before _
    refine ensures_fail_bind _ _ ?_ _
    trivial
  · exact read

theorem ensures_expressionStatement :
    Ensures (Usable source) (Stmt.Faithful source) expressionStatement := by
  apply ensures_get.bind
  intro before _
  apply ensures_expression.bind
  intro value faithful
  apply (ensures_accept _).bind
  intro _ _
  apply ensures_lastSpan.bind
  intro stop _
  refine ensures_pure (Node.throughout_of trivial ?_)
  rintro _ ⟨⟩
  exact faithful

section
variable {p : Parse Stmt} (inner : Ensures (Usable source) (Stmt.Faithful source) p)
include inner

theorem ensures_block (role : BlockRole) :
    Ensures (Usable source) (fun body => ∀ s ∈ body, s.Faithful source) (block p role) := by
  apply (ensures_expect _).bind
  intro opening _
  apply (ensures_sequenceUntil _ inner).bind
  intro statements all
  apply (ensures_expect _).bind
  intro closing _
  dsimp only
  split
  · refine ensures_fail_bind _ _ ?_ _
    trivial
  · exact ensures_pure all

theorem ensures_functionDeclaration :
    Ensures (Usable source) (Stmt.Faithful source) (functionDeclaration p) := by
  apply (ensures_take _).bind
  intro _ _
  apply ensures_lastSpan.bind
  intro start _
  apply (ensures_expect _).bind
  intro name _
  apply (ensures_expect _).bind
  intro _ _
  apply (ensures_listUntil _ ensures_parameter).bind
  intro params _
  apply (ensures_expect _).bind
  intro _ _
  apply (ensures_block inner _).bind
  intro body all
  apply ensures_lastSpan.bind
  intro stop _
  refine ensures_pure (Node.throughout_of trivial ?_)
  intro part child
  cases child with
  | body inside => exact all _ inside

theorem ensures_alternatives :
    Ensures (Usable source) (fun others => ∀ a ∈ others, a.Faithful source) (alternatives p) := by
  apply ensures_fix_unit
  intro again call
  apply (ensures_accept _).bind
  intro more _
  split
  · apply (ensures_condition _).bind
    intro guard faithful
    apply (ensures_block inner _).bind
    intro body all
    apply call.bind
    intro others further
    exact ensures_pure (List.forall_mem_cons.mpr ⟨⟨faithful, all⟩, further⟩)
  · exact ensures_pure nofun

theorem ensures_conditional : Ensures (Usable source) (Stmt.Faithful source) (conditional p) := by
  apply (ensures_take _).bind
  intro _ _
  apply ensures_lastSpan.bind
  intro start _
  apply (ensures_condition _).bind
  intro guard faithful
  apply (ensures_block inner _).bind
  intro body all
  apply (ensures_alternatives inner).bind
  intro others further
  apply (ensures_accept _).bind
  intro present _
  have finish : ∀ last : Option (List Stmt), (∀ body ∈ last, ∀ s ∈ body, s.Faithful source) →
      Ensures (Usable source) (Stmt.Faithful source)
        (lastSpan >>= fun stop => pure (.branch guard body others last (start.cover stop))) := by
    intro last also
    apply ensures_lastSpan.bind
    intro stop _
    refine ensures_pure (Node.throughout_of trivial ?_)
    intro part child
    cases child with
    | condition => exact faithful
    | branch inside => exact all _ inside
    | guard other => exact (further _ other).1
    | alternative other inside => exact (further _ other).2 _ inside
    | otherwise inside => exact also _ rfl _ inside
  dsimp only
  split
  · have last : Ensures (Usable source) (fun last => ∀ body ∈ last, ∀ s ∈ body, s.Faithful source)
        (some <$> block p .otherwise) := by
      rw [map_eq_pure_bind]
      refine (ensures_block inner _).bind fun body all => ensures_pure ?_
      rintro _ ⟨⟩
      exact all
    exact last.bind finish
  · exact (ensures_pure nofun).bind finish

end

theorem ensures_statement : Ensures (Usable source) (Stmt.Faithful source) statement := by
  apply ensures_fix_unit
  intro again inner
  apply ensures_peek.bind
  intro next _
  split
  · exact ensures_declaration false
  · exact ensures_declaration true
  · exact ensures_functionDeclaration inner
  · exact ensures_conditional inner
  · exact ensures_expressionStatement

theorem ensures_program :
    Ensures (Usable source) (fun statements => ∀ s ∈ statements, s.Faithful source) program :=
  ensures_sequenceUntil _ ensures_statement

end Parse

end Syntax

end Scriptlet
