import Scriptlet.Proofs.Syntax.Parallel.Program

/-!
# Programs one behind the other

The tokens of two programs, one behind the other, are read as the statements of the first and then
those of the second (`parse_join`). Only the last statement of the first program meets the tokens
behind it. It could go on with arguments of a call, so that these tokens must not begin with an
opening parenthesis, unless the statement ends with a semicolon or with a block.
-/
namespace Scriptlet

/-- Whether a statement is a declaration of a function or a conditional, which end with a block. -/
def Stmt.hasBlock : Stmt → Bool
  | .function .. | .branch .. => true
  | .declare .. | .expr .. => false

open Token (Lexeme lexemes beforeEnd)

namespace Grammar

/-- Expressions contain no statements, and so no semicolon. -/
theorem no_semicolon {phrase : Phrase} {ls rest : List Lexeme} (h : phrase.Derives ls rest) :
    ∀ l ∈ ls, l.kind ≠ .semicolon := by
  have operator : ∀ op : Operator, op.lexeme.kind ≠ .semicolon := by
    rintro (_ | _ | _) ⟨⟩
  induction h with
  | value _ ih | logical _ ih | operand _ ih | complete _ _ ih | callee _ ih | root _ ih
  | lastArg _ ih => exact ih
  | noArgs | noProperties | name | number | text => simp
  | not _ ih | lastProperty _ ih => simpa using ih
  | member _ ih => simpa [or_imp, forall_and] using ih
  | object _ ih | group _ ih => simpa [or_imp, forall_and] using ih
  | assign _ _ ih ih' | moreArgs _ _ ih ih' | call _ _ ih ih' | moreProperties _ _ ih ih' =>
    simpa [or_imp, forall_and] using And.intro ih ih'
  | binary _ _ _ ih ih' => simpa [or_imp, forall_and, operator] using And.intro ih ih'

/-- A statement that ends with a block begins with a word of its own. -/
theorem begins_of_hasBlock {s : Stmt} {ls rest : List Lexeme}
    (h : Construct.Derives (.statement s) ls rest) (block : s.hasBlock = true) :
    ∃ l tail, ls = l :: tail ∧ (l.kind = .fnWord ∨ l.kind = .ifWord) := by
  cases h with
  | declare | declareOnly | expr => cases block
  | function => exact ⟨_, _, rfl, .inl rfl⟩
  | branch => exact ⟨_, _, rfl, .inr rfl⟩

end Grammar

namespace Syntax

namespace Parse

variable {S : Span → Span → Prop} {last : Token → Prop} {more : List Token} {seen n : Nat}
  {c c' d : Cursor}

theorem hasBlock_shape : ∀ s : Stmt, s.shape.hasBlock = s.hasBlock
  | .declare .. | .function .. | .branch _ _ _ none _ | .branch _ _ _ (some _) _ | .expr .. => rfl

/-- A program is read up to the end, and begins like one of its statements. -/
theorem opens_of_program {read : Program} (run : program c = .ok (read, d)) : Opens c.rest := by
  intro token head
  have derives := program_ok run
  obtain ⟨rest, own⟩ := List.head?_eq_some_iff.mp head
  rw [own, Token.lexemes_cons] at derives
  unfold Grammar.DerivesProgram at derives
  generalize spelled : token.lexeme :: lexemes rest = ls at derives
  generalize read.shape = tree at derives
  cases derives with
  | noStatements => cases spelled
  | moreStatements of_statement =>
    obtain ⟨l, tail, rfl, opens⟩ := Grammar.begins_of_statement of_statement
    rw [← (List.cons.inj spelled).1] at opens
    exact opens

/-- An expression never uses up tokens that end with a semicolon. -/
theorem parallel_expression_before_semicolon (moving : Moving S) {ends : Prop}
    (semicolon : ∀ token, last token → token.kind = .semicolon) :
    Parallel S last more ends seen 1 n (Expr.Moved S S) expression expression := by
  have inside := (parallel_expression moving : Parallel S last more _ seen 1 n _ _ _).inside
  refine ⟨inside.reads, fun {c c' e d} bound follows run _ => ?_, inside.error⟩
  refine inside.ok bound follows run fun used_up _ => ?_
  obtain ⟨ls, spelled, derives⟩ := sound_expression _ _ _ run
  rw [used_up, Token.lexemes_nil, List.append_nil] at spelled
  have some_ := (inside.reads bound run).1
  have full : c.rest ≠ [] := by
    intro none_left
    rw [none_left, List.length_nil] at some_
    omega
  have final := List.getLast?_eq_some_getLast full
  have member : (c.rest.getLast full).lexeme ∈ ls :=
    spelled ▸ List.mem_map_of_mem (List.getLast_mem full)
  exact Grammar.no_semicolon derives _ member (semicolon _ (follows.last _ final))

theorem statement_of_fnWord (begins : c.rest.head?.map Token.kind = some .fnWord) :
    statement c = functionDeclaration statement c := by
  conv_lhs => rw [statement_eq, bind_run]
  simp only [peek?, begins]

theorem statement_of_ifWord (begins : c.rest.head?.map Token.kind = some .ifWord) :
    statement c = conditional statement c := by
  conv_lhs => rw [statement_eq, bind_run]
  simp only [peek?, begins]

theorem kind_eq_of_follows (follows : c.Follows S last more seen d) {kind : Token.Kind}
    (begins : c.rest.head?.map Token.kind = some kind) :
    d.rest.head?.map Token.kind = some kind := by
  obtain ⟨own, -⟩ | ⟨token, rest, other, front, own, others, same, -⟩ := follows_cases follows
  · rw [own] at begins
    cases begins
  · rw [own] at begins
    rw [others, ← begins, List.head?_cons, List.head?_cons, Option.map_some, Option.map_some,
      same.kind_eq]

/-- A statement that ends with a block is read alike in front of whatever opens a statement. -/
theorem hasBlock_moved (moving : Moving S) {s : Stmt} (follows : c.Follows S last more seen c')
    (run : statement c = .ok (s, d)) (block : s.hasBlock = true) (opens : Opens more) :
    ∃ t d', statement c' = .ok (t, d') ∧ s.Moved S S t ∧ d.Follows S last more (seen + 1) d' := by
  obtain ⟨ls, spelled, derives⟩ := sound_statement _ _ _ run
  obtain ⟨l, tail, rfl, word⟩ := Grammar.begins_of_hasBlock derives (by rw [hasBlock_shape, block])
  obtain ⟨token, rest, own, rfl, -⟩ := Token.lexemes_eq_cons spelled
  have inner : ∀ m < c.rest.length, ∀ seen,
      Parallel S last more False seen 1 m (Stmt.Moved S S) statement statement :=
    fun _ _ _ => parallel_statement_inside moving
  rcases word with word | word
  · have begins : c.rest.head?.map Token.kind = some .fnWord := by
      rw [own, List.head?_cons, Option.map_some]
      exact congrArg some word
    rw [statement_of_fnWord begins] at run
    rw [statement_of_fnWord (kind_eq_of_follows follows begins)]
    exact (parallel_functionDeclaration moving inner).ok (Nat.le_refl _) follows run
      fun _ _ => trivial
  · have begins : c.rest.head?.map Token.kind = some .ifWord := by
      rw [own, List.head?_cons, Option.map_some]
      exact congrArg some word
    rw [statement_of_ifWord begins] at run
    rw [statement_of_ifWord (kind_eq_of_follows follows begins)]
    exact (parallel_conditional moving inner fun _ : True => opens).ok (Nat.le_refl _) follows run
      fun _ _ => trivial

/-- A statement does not go on with the tokens behind it: not where further ones of its program
come, and not where the last one ends. -/
theorem statement_moved (moving : Moving S) {s : Stmt} (follows : c.Follows S last more seen c')
    (run : statement c = .ok (s, d)) (opens : Opens more)
    (apart : d.rest = [] → Apart more ∨ (∀ token, last token → token.kind = .semicolon) ∨
      s.hasBlock = true) :
    ∃ t d', statement c' = .ok (t, d') ∧ s.Moved S S t ∧ d.Follows S last more (seen + 1) d' := by
  by_cases final : d.rest = []
  · rcases apart final with apart | semicolon | block
    · exact (parallel_statement moving (fun _ _ _ => parallel_expression moving) Apart.opens).ok
        (Nat.le_refl _) follows run fun _ _ => apart
    · exact (parallel_statement moving
        (fun _ _ _ => parallel_expression_before_semicolon moving semicolon) fun _ : True => opens).ok
        (Nat.le_refl _) follows run fun _ _ => trivial
    · exact hasBlock_moved moving follows run block opens
  · exact (parallel_statement_inside moving).ok (Nat.le_refl _) follows run
      fun none_left _ => final none_left

theorem program_eq :
    program = (do
      match ← peek? with
      | none => return []
      | some _ => return (← statement) :: (← program)) := by
  have unfolded := sequenceUntil_eq (fun _ => false) fun n => agree_statement (n := n)
  simp only [Bool.false_eq_true, if_false] at unfolded
  exact unfolded

theorem program_nil (used_up : c.rest = []) : program c = .ok ([], c) := by
  rw [program_eq, bind_run]
  simp only [peek?, used_up]
  rfl

/-- A program with tokens to come is a statement and a program. -/
theorem program_cons (full : c.rest ≠ []) :
    program c = (statement >>= fun s => program >>= fun ss => pure (s :: ss)) c := by
  obtain ⟨token, rest, own⟩ := List.exists_cons_of_ne_nil full
  conv_lhs => rw [program_eq, bind_run]
  simp only [peek?, own, List.head?_cons]

/-- A program and what is read behind it. The induction is on the tokens that come: each statement
reads some. -/
theorem program_append (moving : Moving S) {later : Program → Prop} (opens : Opens more)
    (behind : ∀ e : Cursor, e.rest = more → ∃ ss d, program e = .ok (ss, d) ∧ later ss)
    {read : Program} (follows : c.Follows S last more seen c') (run : program c = .ok (read, d))
    (apart : Apart more ∨ (∀ token, last token → token.kind = .semicolon) ∨
      ∀ s ∈ read.getLast?, s.hasBlock = true) :
    ∃ front ss d', program c' = .ok (front ++ ss, d') ∧ MovedStmts S S read front ∧ later ss := by
  induction size : c.rest.length using Nat.strongRecOn generalizing c c' seen read with
  | ind n ih =>
  subst size
  by_cases full : c.rest = []
  · obtain ⟨rfl, rfl⟩ := Prod.mk.inj (Except.ok.inj (run.symm.trans (program_nil full)))
    obtain ⟨-, others⟩ | ⟨_, _, _, _, own, -⟩ := follows_cases follows
    · obtain ⟨ss, d', run', made⟩ := behind c' others
      exact ⟨[], ss, d', run', .nil, made⟩
    · rw [own] at full
      cases full
  · rw [program_cons full] at run
    obtain ⟨s, e, first, run⟩ := bind_ok run
    obtain ⟨ss, e', rest, run⟩ := bind_ok run
    obtain ⟨rfl, rfl⟩ := pure_ok run
    have alone : e.rest = [] → ss = [] := fun used_up =>
      (Prod.mk.inj (Except.ok.inj (rest.symm.trans (program_nil used_up)))).1
    have ends : e.rest = [] → Apart more ∨ (∀ token, last token → token.kind = .semicolon) ∨
        s.hasBlock = true := by
      intro used_up
      rw [alone used_up] at apart
      exact apart.imp_right (Or.imp_right fun blocks => blocks s rfl)
    have still : Apart more ∨ (∀ token, last token → token.kind = .semicolon) ∨
        ∀ s ∈ ss.getLast?, s.hasBlock = true := by
      refine apart.imp_right (Or.imp_right fun blocks t final => blocks t ?_)
      rw [List.getLast?_cons, Option.mem_def.mp final]
      rfl
    have some_ := ((parallel_statement_inside moving :
      Parallel S last more False seen 1 _ _ _ _).reads (Nat.le_refl _) first).1
    obtain ⟨t, f, first', moved, between⟩ := statement_moved moving follows first opens ends
    obtain ⟨front, ts, f', rest', all, made⟩ := ih _ (by omega) between rest still rfl
    have full' : c'.rest ≠ [] := by
      obtain ⟨own, -⟩ | ⟨token, rest, other, front, -, others, -⟩ := follows_cases follows
      · exact absurd own full
      · rw [others]
        exact List.cons_ne_nil _ _
    refine ⟨t :: front, ts, f', ?_, .cons moved all, made⟩
    rw [program_cons full', bind_run, first']
    dsimp only
    rw [bind_run, rest']
    rfl

end Parse

variable {S : Span → Span → Prop} {tokens others joined behind : List Token}
  {first second : Program}

/-- The tokens of two programs, the second of them in other places, are those of the statements of
both. -/
theorem parse_join (moving : Moving S) (parsed : parse tokens = .ok first)
    (parsed' : parse others = .ok second)
    (moved : List.Forall₂ (Token.Moved S) (beforeEnd others) behind)
    (spelled : beforeEnd joined = beforeEnd tokens ++ behind)
    (apart : (∀ token ∈ (beforeEnd others).head?, token.kind ≠ .openParen) ∨
      (∀ token ∈ (beforeEnd tokens).getLast?, token.kind = .semicolon) ∨
      ∀ s ∈ first.getLast?, s.hasBlock = true) :
    ∃ other, parse joined = .ok (first ++ other) ∧ Program.Moved S S second other := by
  rw [← rest_ofTokens] at moved spelled
  obtain ⟨d, run⟩ := parse_ok.mp parsed
  obtain ⟨d', run'⟩ := parse_ok.mp parsed'
  have later : ∀ e : Cursor, e.rest = behind →
      ∃ ss d, Parse.program e = .ok (ss, d) ∧ Program.Moved S S second ss := by
    rintro e rfl
    exact Parse.program_moved moving moved run'
  have opens : Opens behind := by
    obtain ⟨_, _, run'', -⟩ := later ⟨none, behind, .empty 0⟩ rfl
    exact Parse.opens_of_program run''
  have follows : Cursor.Follows Eq (fun token => token ∈ (beforeEnd tokens).getLast?) behind 0
      (.ofTokens tokens) (.ofTokens joined) := by
    refine ⟨⟨beforeEnd tokens, ?_, spelled⟩, ?_, fun known => absurd known (Nat.lt_irrefl 0)⟩
    · rw [rest_ofTokens]
      exact List.forall₂_same.mpr fun _ _ => ⟨rfl, rfl, rfl⟩
    · rw [rest_ofTokens]
      exact fun _ => id
  have separate : Apart behind ∨
      (∀ token, token ∈ (beforeEnd tokens).getLast? → token.kind = .semicolon) ∨
      ∀ s ∈ first.getLast?, s.hasBlock = true := by
    refine apart.imp_left fun no_args => ⟨opens, ?_⟩
    rw [← rest_ofTokens] at no_args
    generalize (Cursor.ofTokens others).rest = own at moved no_args
    cases moved with
    | nil => exact nofun
    | cons same _ =>
      rintro _ ⟨⟩
      rw [← same.kind_eq]
      exact no_args _ rfl
  obtain ⟨front, other, d'', run'', same, alike⟩ :=
    Parse.program_append moving_eq opens later follows run separate
  exact ⟨other, parse_ok.mpr ⟨d'', same.eq ▸ run''⟩, alike⟩

end Syntax

end Scriptlet
