import Scriptlet.Proofs.Syntax.Completeness.Expression

/-!
# The statements that are derived are read

What may follow a statement is what opens another one or closes a block (`Behind`). None of it goes
on with the expression that a statement ends with, is the semicolon that may end it, or begins a
further clause of a conditional.
-/
namespace Scriptlet

open Syntax (Parse)
open Token (BeginsWith Lexeme lexemes)

namespace Grammar

/-- What may come behind a statement. -/
def Behind (rest : List Lexeme) : Prop := rest = [] ∨ Begins 4 rest

theorem Behind.not_beginsWith {rest : List Lexeme} {kind : Token.Kind} (h : Behind rest)
    (out : 4 < opening kind) : ¬ BeginsWith kind rest := by
  rcases h with rfl | begins
  · simp [BeginsWith]
  · exact begins.not_beginsWith out

theorem looseness_of_opening {l : Lexeme} (h : opening l.kind ≤ 4) : looseness l = 6 := by
  obtain ⟨kind, text⟩ := l
  cases kind <;> first | rfl | simp [opening] at h

theorem Behind.loose {rest : List Lexeme} (h : Behind rest) : Loose 6 rest := by
  rcases h with rfl | ⟨l, tail, rfl, opens⟩
  · intro l head
    cases head
  · exact loose_cons (Nat.le_of_eq (looseness_of_opening opens).symm)

theorem Terminator.loose {ending rest : List Lexeme} (ends : Terminator ending) (h : Behind rest) :
    Loose 6 (ending ++ rest) := by
  cases ends with
  | none => exact h.loose
  | semicolon text => exact loose_cons (Nat.le_refl 6)

theorem begins_of_param {name : String} {ls rest : List Lexeme}
    (h : Construct.Derives (.param name) ls rest) : Begins 0 ls := by
  cases h with
  | name => exact ⟨_, _, rfl, Nat.le_refl 0⟩
  | parentheses => exact ⟨_, _, rfl, Nat.le_refl 0⟩

theorem begins_of_params {name : String} {names : List String} {ls rest : List Lexeme}
    (h : Construct.Derives (.params (name :: names)) ls rest) : Begins 0 ls := by
  cases h with
  | lastParam of_param => exact begins_of_param of_param
  | moreParams of_param => exact (begins_of_param of_param).append _

/-- Every statement begins with a token that opens it. -/
theorem begins_of_statement {s : Stmt} {ls rest : List Lexeme}
    (h : Construct.Derives (.statement s) ls rest) : Begins 3 ls := by
  cases h with
  | @declare constant =>
    cases constant <;> exact ⟨_, _, rfl, Nat.le_refl 3⟩
  | declareOnly => exact ⟨_, _, rfl, Nat.le_refl 3⟩
  | function => exact ⟨_, _, rfl, Nat.le_refl 3⟩
  | branch => exact ⟨_, _, rfl, Nat.le_refl 3⟩
  | expr of_value => exact ((begins_of_derives of_value rfl).append _).mono (Nat.le_succ 2)

/-- A block ends with a brace, so that what comes behind one of its statements may come there. -/
theorem behind_statements {ss : List Stmt} {ls rest : List Lexeme}
    (h : Construct.Derives (.statements ss) ls rest) (behind : Behind rest) : Behind (ls ++ rest) := by
  cases h with
  | noStatements => exact behind
  | moreStatements of_statement =>
    rw [List.append_assoc]
    exact .inr (((begins_of_statement of_statement).mono (Nat.le_succ 3)).append _)

end Grammar

namespace Syntax

namespace Parse

open Grammar

/-- What the parser does in front of a construct. A parameter is an expression in front of a token
that is no opening parenthesis. A sequence of statements ends at the end of the input or at the brace
that closes its block. -/
def Handled : Construct → List Lexeme → List Lexeme → Prop
  | .param name, ls, rest =>
    ¬ BeginsWith .openParen rest → Phrase.Derives (.expr (.name name .unplaced)) ls rest
  | .params names, ls, rest =>
    Loose 6 rest → ¬ BeginsWith .comma rest → ¬ BeginsWith .openParen rest → ls ≠ [] →
      Reads (commaSeparated parameter) (· = names) ls rest
  | .statement s, ls, rest => Behind rest → Reads statement (·.shape = s) ls rest
  | .statements ss, ls, rest =>
    ∀ stop : Token → Bool, (∀ token, opening token.kind ≤ 3 → stop token = false) → Behind rest →
      (∀ token, rest.head? = some token.lexeme → stop token = true) →
      Reads (sequenceUntil stop statement) (stmtShapes · = ss) ls rest
  | .block ss, ls, rest => ∀ role, Reads (block statement role) (stmtShapes · = ss) ls rest
  | .alternatives as, ls, rest =>
    ¬ BeginsWith .elseIfWord rest →
      Reads (alternatives statement) (alternativeShapes · = as) ls rest
  | .otherwise last, ls, rest =>
    ¬ BeginsWith .elseWord rest →
      Reads (do if ← accept .elseWord then some <$> block statement .otherwise else pure none)
        (Option.map stmtShapes · = last) ls rest

section
variable {ls left right rest : List Lexeme}

theorem reads_terminator {ending : List Lexeme} (ends : Terminator ending) (behind : Behind rest) :
    Reads (accept .semicolon) (fun _ => True) ending rest := by
  rw [← bind_pure (accept .semicolon)]
  cases ends with
  | none => exact reaches_accept_not (behind.not_beginsWith (by decide)) (reads_pure trivial)
  | semicolon text => exact reaches_accept (reads_pure trivial)

theorem reads_parameter {name : String} (h : Phrase.Derives (.expr (.name name .unplaced)) ls rest)
    (loose : Loose 6 rest) : Reads parameter (· = name) ls rest := by
  refine (followed_of_derives h loose).bind_last fun e made => ?_
  cases e with
  | name text span =>
    obtain rfl : text = name := by simpa [Expr.shape] using made
    exact reads_pure rfl
  | _ => simp [Expr.shape] at made

theorem steady_parameter : Steady 0 parameter := fun _ => agree_parameter

theorem handled_parentheses {name opening closing : String}
    (inner : Handled (.param name) ls (⟨.closeParen, closing⟩ :: rest)) :
    Handled (.param name) (⟨.openParen, opening⟩ :: (ls ++ [⟨.closeParen, closing⟩])) rest :=
  fun ends => (Phrase.Derives.group (inner (by simp [BeginsWith]))).of_primary ends

theorem handled_lastParam {name : String} (inner : Handled (.param name) ls rest) :
    Handled (.params [name]) ls rest := by
  intro loose ends closed _
  have item := reads_parameter (inner closed) loose
  refine (reads_last steady_parameter item ends).imp ?_
  rintro _ ⟨a, rfl, rfl⟩
  rfl

theorem handled_moreParams {name next comma : String} {names : List String}
    (inner : Handled (.param name) left (⟨.comma, comma⟩ :: (right ++ rest))) (begins : Begins 0 right)
    (list : Handled (.params (next :: names)) right rest) :
    Handled (.params (name :: next :: names)) (left ++ ⟨.comma, comma⟩ :: right) rest := by
  intro loose ends closed _
  have item := reads_parameter (inner (by simp [BeginsWith])) (loose_cons (Nat.le_refl 6))
  refine (reads_more steady_parameter item (list loose ends closed begins.ne_nil)).imp ?_
  rintro _ ⟨a, bs, rfl, rfl, rfl⟩
  rfl

theorem handled_declare {constant : Bool} {name word sign : String} {value : Expr}
    {ending : List Lexeme} (of_value : Phrase.Derives (.expr value) ls (ending ++ rest))
    (ends : Terminator ending) :
    Handled (.statement (.declare name constant (some value) .unplaced))
      (⟨declaring constant, word⟩ :: ⟨.name, name⟩ :: ⟨.assign, sign⟩ :: (ls ++ ending)) rest := by
  intro behind
  have declared : Reads (declaration constant)
      (·.shape = .declare name constant (some value) .unplaced)
      (⟨declaring constant, word⟩ :: ⟨.name, name⟩ :: ⟨.assign, sign⟩ :: (ls ++ ending)) rest := by
    refine reaches_take (fun _ _ => rfl) fun keyword _ => ?_
    refine reaches_lastSpan fun start => ?_
    refine reaches_expect fun token spells => ?_
    refine reaches_accept_not (by simp [BeginsWith]) ?_
    refine reaches_expect fun _ _ => ?_
    refine (followed_of_derives of_value (ends.loose behind)).bind fun e made => ?_
    refine (reads_terminator ends behind).bind_last fun _ _ => ?_
    refine reaches_lastSpan fun last => reads_pure ?_
    simp only [Stmt.shape, Option.map_some, made, spells]
  rw [statement_eq]
  refine reaches_peek fun token head => ?_
  cases token with
  | none => cases head
  | some token =>
    have is_kind : token.kind = declaring constant := congrArg Lexeme.kind (Option.some.inj head)
    simp only [Option.map_some, is_kind]
    cases constant <;> exact declared

theorem handled_declareOnly {name word semicolon : String} :
    Handled (.statement (.declare name false none .unplaced))
      [⟨.letWord, word⟩, ⟨.name, name⟩, ⟨.semicolon, semicolon⟩] rest := by
  intro _
  rw [statement_eq]
  refine reaches_peek fun token head => ?_
  cases token with
  | none => cases head
  | some token =>
    have is_kind : token.kind = .letWord := congrArg Lexeme.kind (Option.some.inj head)
    simp only [Option.map_some, is_kind]
    refine reaches_take (fun _ _ => rfl) fun keyword _ => ?_
    refine reaches_lastSpan fun start => ?_
    refine reaches_expect fun token spells => ?_
    refine reaches_accept ?_
    refine reaches_lastSpan fun last => reads_pure ?_
    simp only [Stmt.shape, Option.map_none, spells]

theorem handled_expr {value : Expr} {ending : List Lexeme}
    (of_value : Phrase.Derives (.expr value) ls (ending ++ rest)) (ends : Terminator ending) :
    Handled (.statement (.expr value .unplaced)) (ls ++ ending) rest := by
  intro behind
  have read : Reads expressionStatement (·.shape = .expr value .unplaced) (ls ++ ending) rest := by
    refine reaches_get fun c => ?_
    refine (followed_of_derives of_value (ends.loose behind)).bind fun e made => ?_
    refine (reads_terminator ends behind).bind_last fun _ _ => ?_
    refine reaches_lastSpan fun last => reads_pure ?_
    simp only [Stmt.shape, made]
  rw [statement_eq]
  refine reaches_peek fun token head => ?_
  obtain ⟨l, tail, rfl, opens⟩ := begins_of_derives of_value rfl
  cases token with
  | none => cases head
  | some token =>
    obtain rfl : token.lexeme = l := Option.some.inj head
    simp only [Option.map_some]
    cases is_kind : token.kind with
    | letWord | constWord | fnWord | ifWord => simp [Token.lexeme, is_kind, opening, first] at opens
    | _ => exact read

theorem reads_params {names : List String} {closing : String}
    (derives : Construct.Derives (.params names) ls (⟨.closeParen, closing⟩ :: rest))
    (list : Handled (.params names) ls (⟨.closeParen, closing⟩ :: rest)) :
    Reads (listUntil .closeParen parameter) (· = names) ls (⟨.closeParen, closing⟩ :: rest) := by
  have full := list (loose_cons (Nat.le_refl 6)) (by simp [BeginsWith]) (by simp [BeginsWith])
  cases names with
  | nil =>
    cases ls with
    | nil => exact reads_listUntil full (fun _ => rfl) (by simp [BeginsWith])
    | cons l tail => cases derives
  | cons name others =>
    have begins := begins_of_params derives
    exact reads_listUntil full (fun empty => absurd empty begins.ne_nil)
      (begins.not_beginsWith (by decide))

theorem handled_noStatements : Handled (.statements []) [] rest := by
  intro stop _ _ stops
  rw [sequenceUntil_eq stop fun _ => agree_statement]
  refine reaches_peek fun token head => ?_
  cases token with
  | none => exact reads_pure rfl
  | some token =>
    simp only [stops token head.symm, if_true]
    exact reads_pure rfl

theorem handled_moreStatements {s : Stmt} {ss : List Stmt} (begins : Begins 3 left)
    (inner : Handled (.statement s) left (right ++ rest)) (behind : Behind rest → Behind (right ++ rest))
    (list : Handled (.statements ss) right rest) :
    Handled (.statements (s :: ss)) (left ++ right) rest := by
  intro stop goes_on ends stops
  rw [sequenceUntil_eq stop fun _ => agree_statement]
  refine reaches_peek fun token head => ?_
  obtain ⟨l, tail, rfl, opens⟩ := begins
  cases token with
  | none => cases head
  | some token =>
    obtain rfl : token.lexeme = l := Option.some.inj head
    simp only [goes_on token opens, Bool.false_eq_true, if_false]
    refine (inner (behind ends)).bind fun a made => ?_
    refine (list stop goes_on ends stops).bind_last fun others others_made => reads_pure ?_
    simp only [stmtShapes, made, others_made]

theorem handled_block {s : Stmt} {ss : List Stmt} {opening closing : String}
    (inner : Handled (.statements (s :: ss)) ls (⟨.closeBrace, closing⟩ :: rest)) :
    Handled (.block (s :: ss)) (⟨.openBrace, opening⟩ :: (ls ++ [⟨.closeBrace, closing⟩])) rest := by
  intro role
  refine reaches_expect fun brace _ => ?_
  have sequence : Reads (sequenceUntil (·.kind = .closeBrace) statement) (stmtShapes · = s :: ss) ls
      (⟨.closeBrace, closing⟩ :: rest) := by
    apply inner
    · intro token opens
      refine decide_eq_false fun closes => ?_
      simp [closes, Grammar.opening] at opens
    · exact .inr ⟨_, _, rfl, Nat.le_refl 4⟩
    · intro token head
      exact decide_eq_true (congrArg Lexeme.kind (Option.some.inj head)).symm
  refine sequence.bind fun statements made => ?_
  refine reaches_expect fun _ _ => ?_
  cases statements with
  | nil => simp [stmtShapes] at made
  | cons => exact reads_pure made

theorem handled_function {name : String} {params : List String} {body : List Stmt}
    {word opening closing : String}
    (derives : Construct.Derives (.params params) left (⟨.closeParen, closing⟩ :: (right ++ rest)))
    (list : Handled (.params params) left (⟨.closeParen, closing⟩ :: (right ++ rest)))
    (block_read : Handled (.block body) right rest) :
    Handled (.statement (.function name params body .unplaced))
      (⟨.fnWord, word⟩ :: ⟨.name, name⟩ :: ⟨.openParen, opening⟩ ::
        (left ++ ⟨.closeParen, closing⟩ :: right)) rest := by
  intro _
  rw [statement_eq]
  refine reaches_peek fun token head => ?_
  cases token with
  | none => cases head
  | some token =>
    have is_kind : token.kind = .fnWord := congrArg Lexeme.kind (Option.some.inj head)
    simp only [Option.map_some, is_kind]
    refine reaches_take (fun _ _ => rfl) fun keyword _ => ?_
    refine reaches_lastSpan fun start => ?_
    refine reaches_expect fun token spells => ?_
    refine reaches_expect fun _ _ => ?_
    refine (reads_params derives list).bind fun names made => ?_
    refine reaches_expect fun _ _ => ?_
    refine (block_read .function).bind_last fun statements body_made => ?_
    refine reaches_lastSpan fun last => reads_pure ?_
    simp only [Stmt.shape, made, body_made, spells]

theorem reads_condition {clause : Clause} {guard : Expr} {opening closing : String}
    (derives : Phrase.Derives (.expr guard) ls (⟨.closeParen, closing⟩ :: rest)) :
    Reads (condition clause) (·.shape = guard)
      (⟨.openParen, opening⟩ :: (ls ++ [⟨.closeParen, closing⟩])) rest := by
  refine reaches_expect fun _ _ => ?_
  have begins : Begins 2 ls := begins_of_derives derives rfl
  refine reaches_nextIs_not (((begins.append _).append _).not_beginsWith (by decide)) ?_
  change Reads (expression >>= fun e => expect (.conditionEnd clause) >>= fun _ => pure e) _ _ _
  refine (followed_of_derives derives (loose_cons (Nat.le_refl 6))).bind fun e made => ?_
  exact reaches_expect fun _ _ => reads_pure made

theorem handled_noAlternatives : Handled (.alternatives []) [] rest := by
  intro ends
  rw [alternatives_eq]
  exact reaches_accept_not ends (reads_pure rfl)

theorem handled_moreAlternatives {guard : Expr} {body : List Stmt} {others : List Alternative}
    {word opening closing : String} {front first middle : List Lexeme}
    (derives : Phrase.Derives (.expr guard) front (⟨.closeParen, closing⟩ :: (first ++ (middle ++ rest))))
    (block_read : Handled (.block body) first (middle ++ rest))
    (list : Handled (.alternatives others) middle rest) :
    Handled (.alternatives (.mk guard body :: others))
      (⟨.elseIfWord, word⟩ :: ⟨.openParen, opening⟩ ::
        (front ++ ⟨.closeParen, closing⟩ :: (first ++ middle))) rest := by
  intro ends
  rw [alternatives_eq]
  refine reaches_accept ?_
  have guard_read : Reads (condition .elseIfClause) (·.shape = guard)
      (⟨.openParen, opening⟩ :: (front ++ [⟨.closeParen, closing⟩])) ((first ++ middle) ++ rest) :=
    reads_condition (by rwa [List.append_assoc])
  have spelled : ⟨.openParen, opening⟩ :: (front ++ ⟨.closeParen, closing⟩ :: (first ++ middle)) =
      (⟨.openParen, opening⟩ :: (front ++ [⟨.closeParen, closing⟩])) ++ (first ++ middle) := by simp
  rw [spelled]
  refine guard_read.bind fun e made => ?_
  refine (block_read (.clause .elseIfClause)).bind fun statements body_made => ?_
  refine (list ends).bind_last fun as others_made => reads_pure ?_
  simp only [alternativeShapes, Alternative.shape, made, body_made, others_made]

theorem handled_noOtherwise : Handled (.otherwise none) [] rest :=
  fun ends => reaches_accept_not ends (reads_pure rfl)

theorem handled_otherwise {body : List Stmt} {word : String}
    (block_read : Handled (.block body) ls rest) :
    Handled (.otherwise (some body)) (⟨.elseWord, word⟩ :: ls) rest := by
  intro _
  refine reaches_accept ?_
  simp only [if_true, map_eq_pure_bind]
  refine (block_read .otherwise).bind_last fun statements made => reads_pure ?_
  simp only [Option.map_some, made]

/-- The last clause of a conditional on its own. -/
theorem conditional_eq (p : Parse Stmt) :
    conditional p = do
      let _ ← take? fun _ => true
      let start ← lastSpan
      let guard ← condition .ifClause
      let body ← block p (.clause .ifClause)
      let others ← alternatives p
      let last ← (do if ← accept .elseWord then some <$> block p .otherwise else pure none)
      return .branch guard body others last (start.cover (← lastSpan)) := by
  refine bind_congr fun _ => bind_congr fun start => bind_congr fun guard => bind_congr fun body =>
    bind_congr fun others => ?_
  rw [bind_assoc]
  refine bind_congr fun goes_on => ?_
  cases goes_on <;> rfl

theorem handled_branch {guard : Expr} {body : List Stmt} {others : List Alternative}
    {last : Option (List Stmt)} {word opening closing : String}
    {front first middle final : List Lexeme}
    (derives : Phrase.Derives (.expr guard) front
      (⟨.closeParen, closing⟩ :: (first ++ (middle ++ (final ++ rest)))))
    (block_read : Handled (.block body) first (middle ++ (final ++ rest)))
    (list : Handled (.alternatives others) middle (final ++ rest))
    (of_last : Construct.Derives (.otherwise last) final rest)
    (last_read : Handled (.otherwise last) final rest) :
    Handled (.statement (.branch guard body others last .unplaced))
      (⟨.ifWord, word⟩ :: ⟨.openParen, opening⟩ ::
        (front ++ ⟨.closeParen, closing⟩ :: (first ++ (middle ++ final)))) rest := by
  intro behind
  rw [statement_eq]
  refine reaches_peek fun token head => ?_
  cases token with
  | none => cases head
  | some token =>
    have is_kind : token.kind = .ifWord := congrArg Lexeme.kind (Option.some.inj head)
    simp only [Option.map_some, is_kind]
    rw [conditional_eq]
    refine reaches_take (fun _ _ => rfl) fun keyword _ => ?_
    refine reaches_lastSpan fun start => ?_
    have guard_read : Reads (condition .ifClause) (·.shape = guard)
        (⟨.openParen, opening⟩ :: (front ++ [⟨.closeParen, closing⟩]))
        ((first ++ (middle ++ final)) ++ rest) :=
      reads_condition (by simpa using derives)
    have body_read : Reads (block statement (.clause .ifClause)) (stmtShapes · = body) first
        ((middle ++ final) ++ rest) := by
      rw [List.append_assoc]
      exact block_read _
    have no_clause : ¬ BeginsWith .elseIfWord (final ++ rest) := by
      cases of_last with
      | noOtherwise => exact behind.not_beginsWith (by decide)
      | otherwise => simp [BeginsWith]
    have spelled : ⟨.openParen, opening⟩ ::
        (front ++ ⟨.closeParen, closing⟩ :: (first ++ (middle ++ final))) =
        (⟨.openParen, opening⟩ :: (front ++ [⟨.closeParen, closing⟩])) ++
          (first ++ (middle ++ final)) := by simp
    rw [spelled]
    refine guard_read.bind fun e made => ?_
    refine body_read.bind fun statements body_made => ?_
    refine (list no_clause).bind fun as others_made => ?_
    have ends : ¬ BeginsWith .elseWord rest := behind.not_beginsWith (by decide)
    refine (last_read ends).bind_last fun otherwise last_made => ?_
    refine reaches_lastSpan fun stop => reads_pure ?_
    rw [shape_branch, made, body_made, others_made, last_made]

/-- The parser handles everything that the grammar derives. -/
theorem handled_of_derives {construct : Construct} (h : construct.Derives ls rest) :
    Handled construct ls rest := by
  induction h with
  | name => exact fun ends => Phrase.Derives.name.of_primary ends
  | parentheses _ ih => exact handled_parentheses ih
  | noParams => exact fun _ _ _ full => absurd rfl full
  | lastParam _ ih => exact handled_lastParam ih
  | moreParams _ of_params ih ih_params =>
    exact handled_moreParams ih (begins_of_params of_params) ih_params
  | declare of_value ends => exact handled_declare of_value ends
  | declareOnly => exact handled_declareOnly
  | function of_params _ ih_params ih_body => exact handled_function of_params ih_params ih_body
  | branch of_condition _ _ of_last ih_body ih_others ih_last =>
    exact handled_branch of_condition ih_body ih_others of_last ih_last
  | expr of_value ends => exact handled_expr of_value ends
  | noStatements => exact handled_noStatements
  | moreStatements of_statement of_statements ih ih_statements =>
    exact handled_moreStatements (begins_of_statement of_statement) ih
      (behind_statements of_statements) ih_statements
  | block _ ih => exact handled_block ih
  | noAlternatives => exact handled_noAlternatives
  | moreAlternatives of_condition _ _ ih_body ih_others =>
    exact handled_moreAlternatives of_condition ih_body ih_others
  | noOtherwise => exact handled_noOtherwise
  | otherwise _ ih => exact handled_otherwise ih

end

theorem reads_program {p : Program} {ls : List Lexeme} (h : DerivesProgram p ls) :
    Reads program (Program.shape · = p) ls [] :=
  handled_of_derives h _ (fun _ _ => rfl) (.inl rfl) fun _ head => by cases head

end Parse

end Syntax

end Scriptlet
