import Scriptlet.Proofs.Syntax.PrintedText

/-!
# Spellings are derived

The grammar derives the shape of a printable tree from its spelling. Printed expressions are of
three kinds: object literals, calls, and what is primary or a member of something (`outermost`).
Each can stand wherever the grammar wants something further out, as long as no parenthesis follows.
-/
namespace Scriptlet

open Grammar
open Syntax (Level)
open Token (BeginsWith Lexeme)

namespace Grammar

/-- The phrase that a printed expression is, before any step outwards. -/
def outermost : Expr → Phrase
  | .object properties span => .objectLevel (.object properties span)
  | .call callee args span => .call (.call callee args span)
  | e => .member e

section
variable {e : Expr} {ls rest : List Lexeme}

theorem member_of_outermost (h : Phrase.Derives (outermost e) ls rest)
    (no_object : e.isObject = false) (no_call : e.isCall = false) :
    Phrase.Derives (.member e) ls rest := by
  cases e with
  | object => simp [Expr.isObject] at no_object
  | call => simp [Expr.isCall] at no_call
  | assign | binary | not | member | name | number | text => exact h

theorem call_of_outermost (h : Phrase.Derives (outermost e) ls rest)
    (no_object : e.isObject = false) : Phrase.Derives (.call e) ls rest := by
  cases e with
  | object => simp [Expr.isObject] at no_object
  | call => exact h
  | assign | binary | not | member | name | number | text => exact .callee h

theorem unary_of_outermost (h : Phrase.Derives (outermost e) ls rest)
    (no_object : e.isObject = false) (ends : ¬ BeginsWith .openParen rest) :
    Phrase.Derives (.unary e) ls rest :=
  .complete (call_of_outermost h no_object) ends

theorem chain_of_unary (h : Phrase.Derives (.unary e) ls rest) (level : Level) :
    Phrase.Derives (.chain level e) ls rest := by
  cases level with
  | multiplicative => exact .operand h
  | additive => exact .operand (.operand h)
  | comparison => exact .operand (.operand (.operand h))
  | logical => exact .operand (.operand (.operand (.operand h)))

theorem operand_of_unary (h : Phrase.Derives (.unary e) ls rest) (level : Level) :
    Phrase.Derives (operand level e) ls rest := by
  cases level with
  | multiplicative => exact h
  | additive | comparison | logical => exact chain_of_unary h _

/-- A chain of any level is one of the loosest level. -/
theorem logical_of_chain {level : Level} (h : Phrase.Derives (.chain level e) ls rest) :
    Phrase.Derives (.chain .logical e) ls rest := by
  cases level with
  | multiplicative => exact .operand (.operand (.operand h))
  | additive => exact .operand (.operand h)
  | comparison => exact .operand h
  | logical => exact h

theorem objectLevel_of_outermost (h : Phrase.Derives (outermost e) ls rest)
    (ends : e.isObject = false → ¬ BeginsWith .openParen rest) :
    Phrase.Derives (.objectLevel e) ls rest := by
  cases object : e.isObject with
  | false =>
    have unary : Phrase.Derives (.unary e) ls rest := unary_of_outermost h object (ends object)
    exact .logical (chain_of_unary unary _)
  | true =>
    cases e with
    | object => exact h
    | assign | binary | not | call | member | name | number | text =>
      simp [Expr.isObject] at object

theorem expr_of_outermost (h : Phrase.Derives (outermost e) ls rest)
    (ends : e.isObject = false → ¬ BeginsWith .openParen rest) :
    Phrase.Derives (.expr e) ls rest :=
  .value (objectLevel_of_outermost h ends)

/-- An expression in parentheses is primary. -/
theorem member_of_group (h : Phrase.Derives (.expr e) ls (⟨.closeParen, ")"⟩ :: rest)) :
    Phrase.Derives (.member e) (parenthesized ls) rest :=
  .root (.group h)

end

theorem not_beginsWith_cons {kind other : Token.Kind} {text : String} {rest : List Lexeme}
    (differ : other ≠ kind) : ¬ BeginsWith kind (⟨other, text⟩ :: rest) := by
  simpa [BeginsWith] using differ

theorem not_beginsWith_operator (op : Operator) (rest : List Lexeme) :
    ¬ BeginsWith .openParen (op.lexeme :: rest) := by
  apply not_beginsWith_cons
  cases op <;> simp [Operator.kind]

end Grammar

theorem Expr.isObject_shape (e : Expr) : e.shape.isObject = e.isObject := by
  cases e <;> rfl

theorem Expr.isCall_shape (e : Expr) : e.shape.isCall = e.isCall := by
  cases e <;> rfl

/-- An expression stands wherever no parenthesis follows that would begin arguments. -/
theorem Grammar.expr_of_shape {e : Expr} {ls rest : List Lexeme}
    (h : Phrase.Derives (outermost e.shape) ls rest)
    (ends : e.isObject = false → ¬ BeginsWith .openParen rest) :
    Phrase.Derives (.expr e.shape) ls rest :=
  expr_of_outermost h (e.isObject_shape ▸ ends)

theorem Grammar.expr_before_closeParen {e : Expr} {ls rest : List Lexeme}
    (h : ∀ rest, Phrase.Derives (outermost e.shape) ls rest) :
    Phrase.Derives (.expr e.shape) ls (⟨.closeParen, ")"⟩ :: rest) :=
  expr_of_shape (h _) fun _ => not_beginsWith_cons (by decide)

/-- What stands between the quotes of a text literal is its value. -/
theorem unquoted_quoted (value : String) :
    Syntax.Parse.unquoted ("'" ++ value ++ "'") = value := by
  apply String.toList_inj.mp
  simp [Syntax.Parse.unquoted]

mutual

/-- The grammar derives a printable expression from its spelling. -/
theorem Expr.derives : ∀ e : Expr, e.Printable → ∀ rest,
    Phrase.Derives (outermost e.shape) e.spelling rest
  | .assign target value _, printable, rest => by
    obtain ⟨target_printable, value_printable⟩ := printable
    apply member_of_group
    apply Phrase.Derives.assign
    · exact objectLevel_of_outermost (target.derives target_printable _)
        fun _ => not_beginsWith_cons (by decide)
    · exact expr_before_closeParen (value.derives value_printable)
  | .object properties _, printable, rest => .object (propertiesDerive properties printable)
  | .binary op left right _, printable, rest => by
    obtain ⟨left_printable, right_printable, left_fits, right_fits⟩ := printable
    rw [← Expr.isObject_shape] at left_fits right_fits
    have of_left : Phrase.Derives (.unary left.shape) left.spelling
        (op.lexeme :: (right.spelling ++ ⟨.closeParen, ")"⟩ :: rest)) :=
      unary_of_outermost (left.derives left_printable _) left_fits (not_beginsWith_operator _ _)
    have of_right : Phrase.Derives (.unary right.shape) right.spelling
        (⟨.closeParen, ")"⟩ :: rest) :=
      unary_of_outermost (right.derives right_printable _) right_fits
        (not_beginsWith_cons (by decide))
    have chained : Phrase.Derives (.chain op.level (.binary op left.shape right.shape .unplaced))
        (left.spelling ++ op.lexeme :: right.spelling) (⟨.closeParen, ")"⟩ :: rest) :=
      .binary rfl (chain_of_unary of_left _) (operand_of_unary of_right _)
    exact member_of_group (.value (.logical (logical_of_chain chained)))
  | .not operand _, printable, rest => by
    obtain ⟨operand_printable, fits⟩ := printable
    rw [← Expr.isObject_shape] at fits
    have of_operand : Phrase.Derives (.unary operand.shape) operand.spelling
        (⟨.closeParen, ")"⟩ :: rest) :=
      unary_of_outermost (operand.derives operand_printable _) fits
        (not_beginsWith_cons (by decide))
    exact member_of_group (.value (.logical (chain_of_unary (.not of_operand) _)))
  | .call callee args _, printable, rest => by
    obtain ⟨callee_printable, fits, args_printable⟩ := printable
    rw [← Expr.isObject_shape] at fits
    apply Phrase.Derives.call
    · exact call_of_outermost (callee.derives callee_printable _) fits
    · exact argsDerive args args_printable
  | .member object property _, printable, rest => by
    obtain ⟨object_printable, no_object, no_call, -⟩ := printable
    rw [← Expr.isObject_shape] at no_object
    rw [← Expr.isCall_shape] at no_call
    apply Phrase.Derives.member
    exact member_of_outermost (object.derives object_printable _) no_object no_call
  | .name _ _, _, _ => .root .name
  | .number value _, printable, rest => by
    obtain ⟨digits, text, -, -, denotes⟩ := Number.IsLiteral.reads printable
    apply Phrase.Derives.root
    apply Phrase.Derives.number
    rw [text, String.toList_ofList]
    exact denotes
  | .text value _, _, rest => by
    have read : Phrase.Derives
        (.primary (.text (Syntax.Parse.unquoted ("'" ++ value ++ "'")) .unplaced))
        [⟨.text, "'" ++ value ++ "'"⟩] rest := .text
    rw [unquoted_quoted] at read
    exact .root read

theorem argsDerive : ∀ args : List Expr, exprsPrintable args → ∀ {rest : List Lexeme},
    Phrase.Derives (.args (exprShapes args)) (commaSpelling (exprSpellings args))
      (⟨.closeParen, ")"⟩ :: rest)
  | [], _, _ => .noArgs
  | [arg], printable, _ =>
    .lastArg (expr_before_closeParen (arg.derives printable.1))
  | arg :: next :: others, printable, _ =>
    .moreArgs (expr_of_shape (arg.derives printable.1 _) fun _ => not_beginsWith_cons (by decide))
      (argsDerive (next :: others) printable.2)

theorem propertiesDerive : ∀ properties : List Property, propertiesPrintable properties →
    ∀ {rest : List Lexeme}, Phrase.Derives (.properties (propertyShapes properties))
      (commaSpelling (propertySpellings properties)) (⟨.closeBrace, "\x7d"⟩ :: rest)
  | [], _, _ => .noProperties
  | [.mk _ value _], printable, _ =>
    .lastProperty (expr_of_shape (value.derives printable.1.2 _)
      fun _ => not_beginsWith_cons (by decide))
  | .mk _ value _ :: next :: others, printable, _ =>
    .moreProperties (expr_of_shape (value.derives printable.1.2 _)
      fun _ => not_beginsWith_cons (by decide)) (propertiesDerive (next :: others) printable.2)

end

/-- A statement that does not begin with a parenthesis has a spelling that does not either. -/
theorem Stmt.not_beginsWith_openParen {s : Stmt} (printable : s.Printable)
    (plain : s.beginsWithParen = false) (rest : List Lexeme) :
    ¬ BeginsWith .openParen (s.spelling ++ rest) := by
  match s with
  | .expr value _ =>
    obtain ⟨c, tail, l, others, text, spelled, -, alike⟩ := value.beginAlike printable
    intro begins
    have paren : c = '(' := alike (by simpa [Stmt.spelling, spelled, BeginsWith] using begins)
    simp [Stmt.beginsWithParen, text, paren] at plain
  | .declare _ constant (some _) _ | .declare _ constant none _ =>
    cases constant <;> exact not_beginsWith_cons (by decide)
  | .function _ _ _ _ | .branch _ _ _ none _ | .branch _ _ _ (some _) _ =>
    exact not_beginsWith_cons (by decide)

/-- The grammar derives parameters from their names. -/
theorem paramsDerive : ∀ (params : List String) {rest : List Lexeme},
    Construct.Derives (.params params) (commaSpelling (paramSpellings params)) rest
  | [], _ => .noParams
  | [_], _ => .lastParam .name
  | _ :: next :: others, _ => .moreParams .name (paramsDerive (next :: others))

/-- Statements make a block, since the brace that closes it is no parenthesis. -/
theorem block_of_statements {body : List Stmt} (full : body ≠ [])
    (h : ∀ {rest : List Lexeme}, ¬ BeginsWith .openParen rest →
      Construct.Derives (.statements (stmtShapes body)) (stmtsSpelling body) rest)
    {rest : List Lexeme} :
    Construct.Derives (.block (stmtShapes body)) (braced (stmtsSpelling body)) rest := by
  cases body with
  | nil => exact absurd rfl full
  | cons s others => exact .block (h (not_beginsWith_cons (by decide)))

mutual

/-- The grammar derives a printable statement from its spelling. -/
theorem Stmt.derives : ∀ s : Stmt, s.Printable → ∀ {rest : List Lexeme},
    (s.takesArguments = true → ¬ BeginsWith .openParen rest) →
      Construct.Derives (.statement s.shape) s.spelling rest
  | .declare name constant (some value) _, printable, rest, ends => by
    have of_value : Phrase.Derives (.expr value.shape) value.spelling rest :=
      expr_of_shape (value.derives printable.2 _) fun no_object =>
        ends (by simp [Stmt.takesArguments, no_object])
    have declared : Construct.Derives
        (.statement (.declare name constant (some value.shape) .unplaced))
        (⟨declaring constant, (declaringLexeme constant).text⟩ :: ⟨.name, name⟩ :: ⟨.assign, "="⟩ ::
          (value.spelling ++ [])) rest := .declare of_value .none
    rw [List.append_nil] at declared
    cases constant <;> exact declared
  | .declare name constant none _, printable, rest, _ => by
    obtain ⟨-, rfl⟩ := printable
    exact .declareOnly
  | .function name params body _, printable, rest, _ => by
    obtain ⟨-, -, full, body_printable⟩ := printable
    have of_params : Construct.Derives (.params params) (commaSpelling (paramSpellings params))
        (⟨.closeParen, ")"⟩ :: (braced (stmtsSpelling body) ++ rest)) := paramsDerive params
    simpa [Stmt.spelling, parenthesized, Stmt.shape] using
      Construct.Derives.function of_params
        (block_of_statements full (stmtsDerive body body_printable))
  | .branch condition body alternatives none _, printable, rest, _ => by
    obtain ⟨condition_printable, full, body_printable, alternatives_printable⟩ := printable
    have of_others : Construct.Derives (.alternatives (alternativeShapes alternatives))
        (alternativesSpelling alternatives) ([] ++ rest) :=
      alternativesDerive alternatives alternatives_printable
    simpa [Stmt.spelling, parenthesized, Stmt.shape] using
      Construct.Derives.branch (expr_before_closeParen (condition.derives condition_printable))
        (block_of_statements full (stmtsDerive body body_printable)) of_others .noOtherwise
  | .branch condition body alternatives (some last) _, printable, rest, _ => by
    obtain ⟨condition_printable, full, body_printable, alternatives_printable, last_full,
      last_printable⟩ := printable
    have of_last : Construct.Derives (.otherwise (some (stmtShapes last)))
        (⟨.elseWord, "else"⟩ :: braced (stmtsSpelling last)) rest :=
      .otherwise (block_of_statements last_full (stmtsDerive last last_printable))
    have of_others : Construct.Derives (.alternatives (alternativeShapes alternatives))
        (alternativesSpelling alternatives)
        (⟨.elseWord, "else"⟩ :: braced (stmtsSpelling last) ++ rest) :=
      alternativesDerive alternatives alternatives_printable
    simpa [Stmt.spelling, parenthesized, Stmt.shape] using
      Construct.Derives.branch (expr_before_closeParen (condition.derives condition_printable))
        (block_of_statements full (stmtsDerive body body_printable)) of_others of_last
  | .expr value _, printable, rest, ends => by
    have of_value : Phrase.Derives (.expr value.shape) value.spelling rest :=
      expr_of_shape (value.derives printable _) fun no_object =>
        ends (by simp [Stmt.takesArguments, no_object])
    have alone := Construct.Derives.expr of_value .none
    rwa [List.append_nil] at alone

theorem alternativesDerive : ∀ as : List Alternative, alternativesPrintable as →
    ∀ {rest : List Lexeme}, Construct.Derives (.alternatives (alternativeShapes as))
      (alternativesSpelling as) rest
  | [], _, _ => .noAlternatives
  | .mk condition body :: others, printable, rest => by
    obtain ⟨⟨condition_printable, full, body_printable⟩, others_printable⟩ := printable
    have of_others : Construct.Derives (.alternatives (alternativeShapes others))
        (alternativesSpelling others) rest := alternativesDerive others others_printable
    simpa [alternativesSpelling, Alternative.spelling, parenthesized, alternativeShapes,
        Alternative.shape] using
      Construct.Derives.moreAlternatives
        (expr_before_closeParen (condition.derives condition_printable))
        (block_of_statements full (stmtsDerive body body_printable)) of_others

theorem stmtsDerive : ∀ ss : List Stmt, stmtsPrintable ss → ∀ {rest : List Lexeme},
    ¬ BeginsWith .openParen rest →
      Construct.Derives (.statements (stmtShapes ss)) (stmtsSpelling ss) rest
  | [], _, _, _ => .noStatements
  | [s], printable, _, ends => by
    have of_statement := s.derives printable.1 fun _ => ends
    exact .moreStatements of_statement .noStatements
  | s :: next :: others, printable, _, ends => by
    obtain ⟨s_printable, apart, others_printable⟩ := printable
    refine .moreStatements (s.derives s_printable fun takes => ?_)
      (stmtsDerive (next :: others) others_printable ends)
    have plain : next.beginsWithParen = false := apart next rfl takes
    rw [stmtsSpelling, List.append_assoc]
    exact Stmt.not_beginsWith_openParen others_printable.1 plain _

end

/-- The grammar derives a printable program from its spelling. -/
theorem Program.derives {program : Program} (printable : Program.Printable program) :
    DerivesProgram (Program.shape program) (Program.spelling program) :=
  stmtsDerive program printable (by simp [BeginsWith])

end Scriptlet
