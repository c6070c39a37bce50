import Scriptlet.Proofs.Syntax.Soundness.Expression

/-!
# The statements that are read are derived

As for expressions: the parsers of statements are sound if the parser of single statements is, and
`fix_ok` closes the circle.
-/
namespace Scriptlet

namespace Syntax

namespace Parse

open Grammar (Phrase Construct Terminator declaring)
open Token (Lexeme lexemes)

variable {c d : Cursor}

/-! Parameters. They are read as expressions, and only a name in parentheses is a name. -/

/-- The tree of a phrase that has one. -/
def treeOf? : Phrase → Option Expr
  | .expr e | .objectLevel e | .chain _ e | .unary e | .call e | .member e | .primary e => some e
  | .args _ | .properties _ => none

theorem treeOf_operand (level : Level) (e : Expr) : treeOf? (Grammar.operand level e) = some e := by
  cases level <;> rfl

theorem param_of_derives {phrase : Phrase} {name : String} {ls rest : List Lexeme}
    (h : phrase.Derives ls rest) (is_name : treeOf? phrase = some (.name name .unplaced)) :
    Construct.Derives (.param name) ls rest := by
  induction h with
  | value _ ih => exact ih is_name
  | logical _ ih => exact ih is_name
  | operand _ ih => exact ih ((treeOf_operand _ _).trans is_name)
  | complete _ _ ih => exact ih is_name
  | callee _ ih => exact ih is_name
  | root _ ih => exact ih is_name
  | name =>
    cases is_name
    exact .name
  | group _ ih => exact .parentheses (ih is_name)
  | _ => cases is_name

theorem sound_parameter : Sound parameter fun name => Construct.Derives (.param name) := by
  intro c name d h
  obtain ⟨e, c₁, first, h₁⟩ := bind_ok h
  obtain ⟨ls, spelled, derives⟩ := sound_expression _ _ _ first
  cases e with
  | name name span =>
    obtain ⟨rfl, rfl⟩ := pure_ok h₁
    exact ⟨ls, spelled, param_of_derives derives rfl⟩
  | _ => exact absurd h₁ fail_ne_ok

theorem sound_params (closing : Token.Kind) :
    Sound (listUntil closing parameter) fun names => Construct.Derives (.params names) :=
  sound_listUntil sound_parameter .noParams .lastParam .moreParams

/-! Statements without blocks. -/

/-- The first token, whatever it is. -/
theorem take_first_ok {kind : Token.Kind} {taken : Option Token}
    (begins : c.rest.head?.map (·.kind) = some kind)
    (h : take? (fun _ => true) c = .ok (taken, d)) :
    ∃ text, lexemes c.rest = ⟨kind, text⟩ :: lexemes d.rest := by
  cases taken with
  | none =>
    obtain ⟨rfl, other⟩ := take_none_ok h
    cases next : d.rest <;> simp [next] at begins other
  | some token =>
    obtain ⟨-, next⟩ := take_ok h
    rw [next] at begins ⊢
    obtain rfl : token.kind = kind := by simpa using begins
    exact ⟨token.text, rfl⟩

theorem terminator_ok {ended : Bool} (h : accept .semicolon c = .ok (ended, d)) :
    ∃ ending, lexemes c.rest = ending ++ lexemes d.rest ∧ Terminator ending := by
  cases ended with
  | true =>
    obtain ⟨text, next⟩ := accept_true_ok h
    exact ⟨_, next, .semicolon text⟩
  | false =>
    obtain ⟨rfl, -⟩ := accept_false_ok h
    exact ⟨[], rfl, .none⟩

theorem declaration_ok (constant : Bool) {s : Stmt}
    (begins : c.rest.head?.map (·.kind) = some (declaring constant))
    (h : declaration constant c = .ok (s, d)) :
    ∃ ls, lexemes c.rest = ls ++ lexemes d.rest ∧
      Construct.Derives (.statement s.shape) ls (lexemes d.rest) := by
  obtain ⟨keyword, c₁, first, h₁⟩ := bind_ok h
  obtain ⟨word, spelled⟩ := take_first_ok begins first
  obtain ⟨start, c₂, second, h₂⟩ := bind_ok h₁
  obtain rfl := lastSpan_ok second
  obtain ⟨name, c₃, third, h₃⟩ := bind_ok h₂
  rw [expect_ok third] at spelled
  obtain ⟨ended, c₄, fourth, h₄⟩ := bind_ok h₃
  cases ended with
  | true =>
    obtain ⟨semicolon, next⟩ := accept_true_ok fourth
    obtain ⟨last, c₅, fifth, h₅⟩ := bind_ok h₄
    obtain rfl := lastSpan_ok fifth
    cases constant with
    | true =>
      obtain ⟨_, _, failed, -⟩ := bind_ok h₅
      exact absurd failed fail_ne_ok
    | false =>
      obtain ⟨rfl, rfl⟩ := pure_ok h₅
      rw [next] at spelled
      exact ⟨[_, _, _], spelled, .declareOnly⟩
  | false =>
    obtain ⟨rfl, -⟩ := accept_false_ok fourth
    obtain ⟨sign, c₅, fifth, h₅⟩ := bind_ok h₄
    rw [expect_ok fifth] at spelled
    obtain ⟨value, c₆, sixth, h₆⟩ := bind_ok h₅
    obtain ⟨ls, value_spelled, of_value⟩ := sound_expression _ _ _ sixth
    obtain ⟨_, c₇, seventh, h₇⟩ := bind_ok h₆
    obtain ⟨ending, rest_spelled, ends⟩ := terminator_ok seventh
    obtain ⟨last, c₈, eighth, h₈⟩ := bind_ok h₇
    obtain rfl := lastSpan_ok eighth
    obtain ⟨rfl, rfl⟩ := pure_ok h₈
    rw [rest_spelled] at value_spelled of_value
    rw [value_spelled, ← List.append_assoc] at spelled
    exact ⟨_ :: _ :: _ :: (ls ++ ending), spelled, .declare of_value ends⟩

theorem sound_expressionStatement :
    Sound expressionStatement fun s => Construct.Derives (.statement s.shape) := by
  intro c s d h
  obtain ⟨_, c₁, first, h₁⟩ := bind_ok h
  obtain ⟨rfl, rfl⟩ := get_ok first
  obtain ⟨value, c₂, second, h₂⟩ := bind_ok h₁
  obtain ⟨ls, spelled, derives⟩ := sound_expression _ _ _ second
  obtain ⟨_, c₃, third, h₃⟩ := bind_ok h₂
  obtain ⟨ending, rest_spelled, ends⟩ := terminator_ok third
  obtain ⟨last, c₄, fourth, h₄⟩ := bind_ok h₃
  obtain rfl := lastSpan_ok fourth
  obtain ⟨rfl, rfl⟩ := pure_ok h₄
  rw [rest_spelled] at spelled derives
  exact ⟨ls ++ ending, by rw [spelled, List.append_assoc], .expr derives ends⟩

theorem condition_ok {clause : Clause} {e : Expr} (h : condition clause c = .ok (e, d)) :
    ∃ opening ls closing,
      lexemes c.rest = ⟨.openParen, opening⟩ :: (ls ++ ⟨.closeParen, closing⟩ :: lexemes d.rest) ∧
      Phrase.Derives (.expr e.shape) ls (⟨.closeParen, closing⟩ :: lexemes d.rest) := by
  obtain ⟨opening, c₁, first, h₁⟩ := bind_ok h
  obtain ⟨empty, c₂, second, h₂⟩ := bind_ok h₁
  obtain rfl := nextIs_ok second
  have read : (expression >>= fun e => expect (.conditionEnd clause) >>= fun _ => pure e) c₂ =
      .ok (e, d) := by
    cases empty with
    | true =>
      obtain ⟨_, _, -, h₃⟩ := bind_ok h₂
      obtain ⟨_, _, failed, -⟩ := bind_ok h₃
      exact absurd failed fail_ne_ok
    | false => exact h₂
  obtain ⟨value, c₃, third, h₃⟩ := bind_ok read
  obtain ⟨closing, c₄, fourth, h₄⟩ := bind_ok h₃
  obtain ⟨rfl, rfl⟩ := pure_ok h₄
  obtain ⟨ls, spelled, derives⟩ := sound_expression _ _ _ third
  rw [expect_ok fourth] at spelled derives
  refine ⟨opening.text, ls, closing.text, ?_, derives⟩
  rw [expect_ok first, spelled]
  rfl

/-! Statements, given a sound parser of statements. -/

section
variable {p : Parse Stmt}

/-- A sequence is read up to a token that ends it, or up to the end. -/
theorem sequence_ok (inner : Sound p fun s => Construct.Derives (.statement s.shape))
    {stop : Token → Bool} {ss : List Stmt} (h : sequenceUntil stop p c = .ok (ss, d)) :
    (∃ ls, lexemes c.rest = ls ++ lexemes d.rest ∧
      Construct.Derives (.statements (stmtShapes ss)) ls (lexemes d.rest)) ∧
    d.rest.head?.all stop := by
  refine fix_ok (motive := fun _ c ss d => (∃ ls, lexemes c.rest = ls ++ lexemes d.rest ∧
    Construct.Derives (.statements (stmtShapes ss)) ls (lexemes d.rest)) ∧
    d.rest.head?.all stop) ?_ h
  intro again again_ok _ c ss d h
  obtain ⟨next, c₁, first, h₁⟩ := bind_ok h
  obtain ⟨rfl, rfl⟩ := peek_ok first
  cases next : c₁.rest.head? with
  | none =>
    simp only [next] at h₁
    obtain ⟨rfl, rfl⟩ := pure_ok h₁
    exact ⟨⟨[], rfl, .noStatements⟩, by simp [next]⟩
  | some token =>
    simp only [next] at h₁
    cases stops : stop token with
    | true =>
      simp only [stops, if_true] at h₁
      obtain ⟨rfl, rfl⟩ := pure_ok h₁
      exact ⟨⟨[], rfl, .noStatements⟩, by simp [next, stops]⟩
    | false =>
      simp only [stops, Bool.false_eq_true, if_false] at h₁
      obtain ⟨s, c₂, second, h₂⟩ := bind_ok h₁
      obtain ⟨others, c₃, third, h₃⟩ := bind_ok h₂
      obtain ⟨rfl, rfl⟩ := pure_ok h₃
      obtain ⟨left, spelled, of_statement⟩ := inner _ _ _ second
      obtain ⟨⟨right, others_spelled, of_statements⟩, ends⟩ := again_ok _ _ _ _ third
      rw [others_spelled] at spelled of_statement
      exact ⟨⟨left ++ right, by rw [spelled, List.append_assoc],
        .moreStatements of_statement of_statements⟩, ends⟩

theorem sound_block (inner : Sound p fun s => Construct.Derives (.statement s.shape))
    (role : BlockRole) : Sound (block p role) fun ss => Construct.Derives (.block (stmtShapes ss)) := by
  intro c ss d h
  obtain ⟨opening, c₁, first, h₁⟩ := bind_ok h
  obtain ⟨statements, c₂, second, h₂⟩ := bind_ok h₁
  obtain ⟨closing, c₃, third, h₃⟩ := bind_ok h₂
  obtain ⟨⟨ls, spelled, derives⟩, -⟩ := sequence_ok inner second
  rw [expect_ok third] at spelled derives
  cases statements with
  | nil =>
    obtain ⟨_, _, failed, -⟩ := bind_ok h₃
    exact absurd failed fail_ne_ok
  | cons s rest =>
    obtain ⟨rfl, rfl⟩ := pure_ok h₃
    rw [stmtShapes] at derives
    refine ⟨⟨.openBrace, opening.text⟩ :: (ls ++ [⟨.closeBrace, closing.text⟩]), ?_, ?_⟩
    · rw [expect_ok first, spelled]
      simp [Expected.kind]
    · simp only [stmtShapes]
      exact .block derives

theorem functionDeclaration_ok (inner : Sound p fun s => Construct.Derives (.statement s.shape))
    {s : Stmt} (begins : c.rest.head?.map (·.kind) = some .fnWord)
    (h : functionDeclaration p c = .ok (s, d)) :
    ∃ ls, lexemes c.rest = ls ++ lexemes d.rest ∧
      Construct.Derives (.statement s.shape) ls (lexemes d.rest) := by
  obtain ⟨keyword, c₁, first, h₁⟩ := bind_ok h
  obtain ⟨word, spelled⟩ := take_first_ok begins first
  obtain ⟨start, c₂, second, h₂⟩ := bind_ok h₁
  obtain rfl := lastSpan_ok second
  obtain ⟨name, c₃, third, h₃⟩ := bind_ok h₂
  obtain ⟨opening, c₄, fourth, h₄⟩ := bind_ok h₃
  obtain ⟨params, c₅, fifth, h₅⟩ := bind_ok h₄
  obtain ⟨closing, c₆, sixth, h₆⟩ := bind_ok h₅
  obtain ⟨body, c₇, seventh, h₇⟩ := bind_ok h₆
  obtain ⟨last, c₈, eighth, h₈⟩ := bind_ok h₇
  obtain rfl := lastSpan_ok eighth
  obtain ⟨rfl, rfl⟩ := pure_ok h₈
  obtain ⟨left, params_spelled, of_params⟩ := sound_params _ _ _ _ fifth
  obtain ⟨right, body_spelled, of_body⟩ := sound_block inner _ _ _ _ seventh
  rw [expect_ok sixth, body_spelled] at params_spelled of_params
  rw [expect_ok third, expect_ok fourth, params_spelled] at spelled
  refine ⟨⟨.fnWord, word⟩ :: ⟨.name, name.text⟩ :: ⟨.openParen, opening.text⟩ ::
    (left ++ ⟨.closeParen, closing.text⟩ :: right), ?_, .function of_params of_body⟩
  simpa [Expected.kind] using spelled

theorem sound_alternatives (inner : Sound p fun s => Construct.Derives (.statement s.shape)) :
    Sound (alternatives p) fun as => Construct.Derives (.alternatives (alternativeShapes as)) := by
  intro c as d h
  refine fix_ok (motive := fun _ c as d => ∃ ls, lexemes c.rest = ls ++ lexemes d.rest ∧
    Construct.Derives (.alternatives (alternativeShapes as)) ls (lexemes d.rest)) ?_ h
  intro again again_ok _ c as d h
  obtain ⟨goes_on, c₁, first, h₁⟩ := bind_ok h
  cases goes_on with
  | false =>
    obtain ⟨rfl, rfl⟩ := pure_ok h₁
    obtain ⟨rfl, -⟩ := accept_false_ok first
    exact ⟨[], rfl, .noAlternatives⟩
  | true =>
    obtain ⟨guard, c₂, second, h₂⟩ := bind_ok h₁
    obtain ⟨body, c₃, third, h₃⟩ := bind_ok h₂
    obtain ⟨others, c₄, fourth, h₄⟩ := bind_ok h₃
    obtain ⟨rfl, rfl⟩ := pure_ok h₄
    obtain ⟨word, spelled⟩ := accept_true_ok first
    obtain ⟨opening, ls, closing, guard_spelled, of_condition⟩ := condition_ok second
    obtain ⟨left, body_spelled, of_body⟩ := sound_block inner _ _ _ _ third
    obtain ⟨right, others_spelled, of_others⟩ := again_ok _ _ _ _ fourth
    rw [others_spelled] at body_spelled of_body
    rw [body_spelled] at guard_spelled of_condition
    refine ⟨⟨.elseIfWord, word⟩ :: ⟨.openParen, opening⟩ ::
      (ls ++ ⟨.closeParen, closing⟩ :: (left ++ right)), ?_, ?_⟩
    · simp [spelled, guard_spelled]
    · rw [alternativeShapes]
      exact .moreAlternatives of_condition of_body of_others

theorem otherwise_ok (inner : Sound p fun s => Construct.Derives (.statement s.shape))
    {goes_on : Bool} {c₁ : Cursor} {last : Option (List Stmt)}
    (first : accept .elseWord c = .ok (goes_on, c₁))
    (h : (if goes_on then some <$> block p .otherwise else pure none) c₁ = .ok (last, d)) :
    ∃ ls, lexemes c.rest = ls ++ lexemes d.rest ∧
      Construct.Derives (.otherwise (last.map stmtShapes)) ls (lexemes d.rest) := by
  cases goes_on with
  | false =>
    obtain ⟨rfl, rfl⟩ := pure_ok h
    obtain ⟨rfl, -⟩ := accept_false_ok first
    exact ⟨[], rfl, .noOtherwise⟩
  | true =>
    simp only [if_true, map_eq_pure_bind] at h
    obtain ⟨body, c₂, second, h₂⟩ := bind_ok h
    obtain ⟨rfl, rfl⟩ := pure_ok h₂
    obtain ⟨word, spelled⟩ := accept_true_ok first
    obtain ⟨ls, body_spelled, of_body⟩ := sound_block inner _ _ _ _ second
    exact ⟨_ :: ls, by rw [spelled, body_spelled, List.cons_append], .otherwise of_body⟩

theorem conditional_ok (inner : Sound p fun s => Construct.Derives (.statement s.shape))
    {s : Stmt} (begins : c.rest.head?.map (·.kind) = some .ifWord)
    (h : conditional p c = .ok (s, d)) :
    ∃ ls, lexemes c.rest = ls ++ lexemes d.rest ∧
      Construct.Derives (.statement s.shape) ls (lexemes d.rest) := by
  obtain ⟨keyword, c₁, first, h₁⟩ := bind_ok h
  obtain ⟨word, spelled⟩ := take_first_ok begins first
  obtain ⟨start, c₂, second, h₂⟩ := bind_ok h₁
  obtain rfl := lastSpan_ok second
  obtain ⟨guard, c₃, third, h₃⟩ := bind_ok h₂
  obtain ⟨opening, ls, closing, guard_spelled, of_condition⟩ := condition_ok third
  obtain ⟨body, c₄, fourth, h₄⟩ := bind_ok h₃
  obtain ⟨left, body_spelled, of_body⟩ := sound_block inner _ _ _ _ fourth
  obtain ⟨others, c₅, fifth, h₅⟩ := bind_ok h₄
  obtain ⟨middle, others_spelled, of_others⟩ := sound_alternatives inner _ _ _ fifth
  obtain ⟨goes_on, c₆, sixth, h₆⟩ := bind_ok h₅
  have read : ((if goes_on then some <$> block p .otherwise else pure none) >>= fun last =>
      lastSpan >>= fun stop => pure (.branch guard body others last (start.cover stop))) c₆ =
      .ok (s, d) := by
    cases goes_on <;> exact h₆
  obtain ⟨last, c₇, seventh, h₇⟩ := bind_ok read
  obtain ⟨final, last_spelled, of_last⟩ := otherwise_ok inner sixth seventh
  obtain ⟨stop, c₈, eighth, h₈⟩ := bind_ok h₇
  obtain rfl := lastSpan_ok eighth
  obtain ⟨rfl, rfl⟩ := pure_ok h₈
  rw [last_spelled] at others_spelled of_others
  rw [others_spelled] at body_spelled of_body
  rw [body_spelled] at guard_spelled of_condition
  rw [guard_spelled] at spelled
  rw [shape_branch]
  refine ⟨⟨.ifWord, word⟩ :: ⟨.openParen, opening⟩ ::
    (ls ++ ⟨.closeParen, closing⟩ :: (left ++ (middle ++ final))), ?_,
    .branch of_condition of_body of_others of_last⟩
  simpa using spelled

theorem sound_statement_step (inner : Sound p fun s => Construct.Derives (.statement s.shape)) :
    Sound
      (do
        match (← peek?).map Token.kind with
        | some .letWord => declaration false
        | some .constWord => declaration true
        | some .fnWord => functionDeclaration p
        | some .ifWord => conditional p
        | _ => expressionStatement)
      fun s => Construct.Derives (.statement s.shape) := by
  intro c s d h
  obtain ⟨next, c₁, first, h₁⟩ := bind_ok h
  obtain ⟨rfl, rfl⟩ := peek_ok first
  cases begins : c₁.rest.head?.map Token.kind with
  | none =>
    simp only [begins] at h₁
    exact sound_expressionStatement _ _ _ h₁
  | some kind =>
    simp only [begins] at h₁
    cases kind with
    | letWord => exact declaration_ok false begins h₁
    | constWord => exact declaration_ok true begins h₁
    | fnWord => exact functionDeclaration_ok inner begins h₁
    | ifWord => exact conditional_ok inner begins h₁
    | _ => exact sound_expressionStatement _ _ _ h₁

end

theorem sound_statement : Sound statement fun s => Construct.Derives (.statement s.shape) := by
  intro c s d h
  refine fix_ok (motive := fun _ c s d => ∃ ls, lexemes c.rest = ls ++ lexemes d.rest ∧
    Construct.Derives (.statement s.shape) ls (lexemes d.rest)) ?_ h
  intro again again_ok _
  exact sound_statement_step (again_ok ())

/-- A program takes all tokens to come. -/
theorem program_rest {program : Program} (h : Parse.program c = .ok (program, d)) : d.rest = [] := by
  have ends := (sequence_ok sound_statement h).2
  cases left_over : d.rest with
  | nil => rfl
  | cons token rest => simp [left_over] at ends

/-- Programs are read up to the end. -/
theorem program_ok {program : Program} (h : Parse.program c = .ok (program, d)) :
    Grammar.DerivesProgram (Program.shape program) (lexemes c.rest) := by
  obtain ⟨⟨ls, spelled, derives⟩, -⟩ := sequence_ok sound_statement h
  rw [program_rest h] at spelled derives
  rw [spelled, Token.lexemes_nil, List.append_nil]
  exact derives

end Parse

end Syntax

end Scriptlet
