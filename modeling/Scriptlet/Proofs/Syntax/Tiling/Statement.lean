import Scriptlet.Proofs.Syntax.Tiling.Expression

/-!
# Spans of statements

A statement begins with its first token and ends with its last one, so that its span is the extent
of the tokens that it is read from. The statements of a sequence share these tokens among them. That
the tokens spell the statement was shown before; here they are told apart from those around them.
-/
namespace Scriptlet

open Token (Ahead Extent Laid Ordered extent_cover laid_nil lexemes)

/-- The span of a statement is that of its own tokens, and all that stands inside of it is neat. -/
structure Stmt.LaidIn (tokens own : List Token) (s : Stmt) : Prop where
  extent : Extent own s.span
  neat : (Node.stmt s).Throughout (Node.Neat tokens)

/-- The statements of a block lie in its own tokens, between its braces. -/
structure Stmt.BlockLaidIn (tokens own : List Token) (block : List Stmt) : Prop where
  spans : Laid own (block.map Stmt.span)
  placed : Stmt.BlockPlaced tokens block
  neat : ∀ s ∈ block, (Node.stmt s).Throughout (Node.Neat tokens)

namespace Syntax

namespace Parse

open Grammar (Construct declaring)
open Stmt (BlockLaidIn BlockPlaced LaidIn)

variable {c d e : Cursor} {tokens own more : List Token} {span : Span}

/-- What a parser reads has one beginning only, so that it is the tokens between the cursors that
spell the result. -/
theorem Read.derived (read : Read c d own) {derives : List Token.Lexeme → List Token.Lexeme → Prop}
    (h : ∃ ls, lexemes c.rest = ls ++ lexemes d.rest ∧ derives ls (lexemes d.rest)) :
    derives (lexemes own) (lexemes d.rest) := by
  obtain ⟨ls, spelled, of_ls⟩ := h
  rw [read.rest, Token.lexemes_append] at spelled
  rwa [List.append_cancel_right spelled]

theorem lastSpan_read {last : Token} (read : Read c d own) (final : own.getLast? = some last)
    (h : lastSpan d = .ok (span, e)) : e = d ∧ span = last.span := by
  obtain ⟨_, _, first, h⟩ := bind_ok h
  obtain ⟨rfl, rfl⟩ := get_ok first
  obtain ⟨rfl, rfl⟩ := pure_ok h
  exact ⟨rfl, by rw [read.previous, final]; rfl⟩

theorem lastSpan_token {token : Token} (read : Read c d [token]) (h : lastSpan d = .ok (span, e)) :
    e = d ∧ span = token.span :=
  lastSpan_read read rfl h

/-- A span from the first token read to the last one is the extent of what was read. -/
theorem extent_read {first : Token} (read : Read c d (first :: more)) (ahead : Ahead tokens c.rest)
    (h : lastSpan d = .ok (span, e)) :
    e = d ∧ Extent (first :: more) (first.span.cover span) := by
  cases final : (first :: more).getLast? with
  | none => simp at final
  | some last =>
    obtain ⟨rfl, rfl⟩ := lastSpan_read read final h
    exact ⟨rfl, extent_cover (read.own_ordered ahead) rfl final⟩

/-- The first token, whatever it is. -/
theorem keyword_read {kind : Token.Kind} {taken : Option Token}
    (begins : c.rest.head?.map (·.kind) = some kind)
    (h : take? (fun _ => true) c = .ok (taken, d)) :
    ∃ keyword, taken = some keyword ∧ Read c d [keyword] := by
  cases taken with
  | none =>
    obtain ⟨rfl, other⟩ := take_none_ok h
    cases next : d.rest <;> simp [next] at begins other
  | some keyword => exact ⟨keyword, rfl, (take_read h).2⟩

theorem terminator_read {ended : Bool} (h : accept .semicolon c = .ok (ended, d)) :
    ∃ ending, Read c d ending := by
  cases ended with
  | true =>
    obtain ⟨token, -, read⟩ := accept_read h
    exact ⟨_, read⟩
  | false =>
    obtain ⟨rfl, -⟩ := accept_false_ok h
    exact ⟨[], .nil⟩

/-- Parameters are read as expressions, but only their names are kept. -/
theorem lays_params (closing : Token.Kind) :
    Lays tokens (listUntil closing parameter) fun _ _ => True := by
  have items : Lays tokens parameter fun _ own => Laid own [] ∧ True := by
    intro c name d h ahead
    obtain ⟨e, c₁, first, h₁⟩ := bind_ok h
    obtain ⟨own, read, -⟩ := lays_expression _ _ _ first ahead
    cases e with
    | name name span =>
      obtain ⟨rfl, rfl⟩ := pure_ok h₁
      exact ⟨own, read, laid_nil, trivial⟩
    | _ => exact absurd h₁ fail_ne_ok
  intro c names d h ahead
  have list := @lays_listUntil _ tokens parameter (fun _ => []) (fun _ => True) closing items
  obtain ⟨own, read, -⟩ := list _ _ _ h ahead
  exact ⟨own, read, trivial⟩

/-- A statement that was read is neat if its parts are. -/
theorem laidIn_of_read (read : Read c d own) (ahead : Ahead tokens c.rest) {s : Stmt}
    (derived : ∃ ls, lexemes c.rest = ls ++ lexemes d.rest ∧
      Construct.Derives (.statement s.shape) ls (lexemes d.rest))
    (extent : Extent own s.span) (inner : Laid own s.inner)
    (blocks : ∀ block ∈ s.blocks, BlockPlaced tokens block)
    (parts : ∀ part, (Node.stmt s).Child part → part.Throughout (Node.Neat tokens)) :
    s.LaidIn tokens own := by
  obtain ⟨before, split⟩ := ahead.suffix
  rw [read.rest] at split
  have placed : s.Placed tokens := ⟨before, own, d.rest, split.symm, read.derived derived, extent⟩
  have nests := inner.nests_extent (read.own_ordered ahead) extent
  exact ⟨extent, Node.throughout_of ⟨placed, nests, blocks⟩ parts⟩

/-! Statements without blocks. -/

theorem lays_declaration (constant : Bool) {s : Stmt}
    (begins : c.rest.head?.map (·.kind) = some (declaring constant))
    (h : declaration constant c = .ok (s, d)) (ahead : Ahead tokens c.rest) :
    ∃ own, Read c d own ∧ s.LaidIn tokens own := by
  have derived := declaration_ok constant begins h
  obtain ⟨taken, c₁, first, h₁⟩ := bind_ok h
  obtain ⟨keyword, rfl, read₁⟩ := keyword_read begins first
  obtain ⟨start, c₂, second, h₂⟩ := bind_ok h₁
  obtain ⟨rfl, rfl⟩ := lastSpan_token read₁ second
  obtain ⟨name, c₃, third, h₃⟩ := bind_ok h₂
  obtain ⟨-, read₂⟩ := expect_read third
  obtain ⟨ended, c₄, fourth, h₄⟩ := bind_ok h₃
  cases ended with
  | true =>
    obtain ⟨semicolon, -, read₃⟩ := accept_read fourth
    have read := read₁.trans (read₂.trans read₃)
    obtain ⟨last, c₅, fifth, h₅⟩ := bind_ok h₄
    obtain ⟨rfl, extent⟩ := extent_read read ahead fifth
    cases constant with
    | true =>
      obtain ⟨_, _, failed, -⟩ := bind_ok h₅
      exact absurd failed fail_ne_ok
    | false =>
      obtain ⟨rfl, rfl⟩ := pure_ok h₅
      exact ⟨_, read, laidIn_of_read read ahead derived extent laid_nil nofun nofun⟩
  | false =>
    obtain ⟨rfl, -⟩ := accept_false_ok fourth
    obtain ⟨sign, c₅, fifth, h₅⟩ := bind_ok h₄
    obtain ⟨-, read₃⟩ := expect_read fifth
    have before := read₁.trans (read₂.trans read₃)
    obtain ⟨value, c₆, sixth, h₆⟩ := bind_ok h₅
    obtain ⟨inside, read₄, laid⟩ := lays_expression _ _ _ sixth (before.ahead ahead)
    obtain ⟨_, c₇, seventh, h₇⟩ := bind_ok h₆
    obtain ⟨ending, read₅⟩ := terminator_read seventh
    have read := before.trans (read₄.trans read₅)
    obtain ⟨last, c₈, eighth, h₈⟩ := bind_ok h₇
    obtain ⟨rfl, extent⟩ := extent_read read ahead eighth
    obtain ⟨rfl, rfl⟩ := pure_ok h₈
    have inner := laid.span.among ([keyword] ++ ([name] ++ [sign])) ending
    refine ⟨_, read, laidIn_of_read read ahead derived extent inner nofun ?_⟩
    rintro _ ⟨⟩
    exact laid.neat

theorem lays_expressionStatement : Lays tokens expressionStatement fun s => s.LaidIn tokens := by
  intro c s d h ahead
  have derived := sound_expressionStatement _ _ _ h
  obtain ⟨_, c₁, first, h₁⟩ := bind_ok h
  obtain ⟨rfl, rfl⟩ := get_ok first
  obtain ⟨value, c₂, second, h₂⟩ := bind_ok h₁
  obtain ⟨inside, read₁, laid⟩ := lays_expression _ _ _ second ahead
  obtain ⟨_, c₃, third, h₃⟩ := bind_ok h₂
  obtain ⟨ending, read₂⟩ := terminator_read third
  have read := read₁.trans read₂
  obtain ⟨last, c₄, fourth, h₄⟩ := bind_ok h₃
  -- An expression has a first token.
  obtain ⟨token, member, -⟩ := laid.span.starts _ List.mem_cons_self
  obtain ⟨begin_, rest, rfl⟩ := List.exists_cons_of_ne_nil (List.ne_nil_of_mem member)
  obtain ⟨rfl, extent⟩ := extent_read read ahead fourth
  obtain ⟨rfl, rfl⟩ := pure_ok h₄
  have here : c₁.here = begin_.span := by
    rw [Cursor.here, read.rest]
    rfl
  have inner := laid.span.mono (List.subset_append_left _ ending)
  refine ⟨_, read, laidIn_of_read read ahead derived (here ▸ extent) inner nofun ?_⟩
  rintro _ ⟨⟩
  exact laid.neat

theorem lays_condition (clause : Clause) : LaysExpr tokens (condition clause) := by
  intro c e d h ahead
  obtain ⟨opening, c₁, first, h₁⟩ := bind_ok h
  obtain ⟨-, read₁⟩ := expect_read first
  obtain ⟨empty, c₂, second, h₂⟩ := bind_ok h₁
  obtain rfl := nextIs_ok second
  have group : (expression >>= fun e => expect (.conditionEnd clause) >>= fun _ => pure e) c₂ =
      .ok (e, d) := by
    cases empty with
    | true =>
      obtain ⟨_, _, -, h₃⟩ := bind_ok h₂
      obtain ⟨_, _, failed, -⟩ := bind_ok h₃
      exact absurd failed fail_ne_ok
    | false => exact h₂
  obtain ⟨value, c₃, third, h₃⟩ := bind_ok group
  obtain ⟨closing, c₄, fourth, h₄⟩ := bind_ok h₃
  obtain ⟨rfl, rfl⟩ := pure_ok h₄
  obtain ⟨inside, read₂, laid⟩ := lays_expression _ _ _ third (read₁.ahead ahead)
  obtain ⟨-, read₃⟩ := expect_read fourth
  exact ⟨_, read₁.trans (read₂.trans read₃), laid.span.among [opening] [closing], laid.neat⟩

/-! Statements, given a parser of statements. -/

/-- Statements that share tokens among them. -/
structure Shares (tokens : List Token) (ss : List Stmt) (own : List Token) : Prop where
  spans : Laid own (ss.map Stmt.span)
  neat : ∀ s ∈ ss, (Node.stmt s).Throughout (Node.Neat tokens)
  covered : ∀ token ∈ own, ∃ s ∈ ss, token.span.Inside s.span

theorem shares_nil : Shares tokens [] [] := ⟨laid_nil, nofun, nofun⟩

theorem Shares.cons {s : Stmt} {ss : List Stmt} {left right : List Token}
    (first : s.LaidIn tokens left) (others : Shares tokens ss right)
    (ordered : Ordered (left ++ right)) : Shares tokens (s :: ss) (left ++ right) := by
  refine ⟨(first.extent.laid ordered.front).append others.spans ordered,
    List.forall_mem_cons.mpr ⟨first.neat, others.neat⟩, ?_⟩
  intro token member
  rcases List.mem_append.mp member with inside | later
  · obtain ⟨begin_, last, head, final, extent⟩ := first.extent
    refine ⟨s, List.mem_cons_self, ?_⟩
    rw [extent]
    exact ordered.front.bounds head final inside
  · obtain ⟨s', member', inside⟩ := others.covered token later
    exact ⟨s', List.mem_cons_of_mem _ member', inside⟩

section
variable {p : Parse Stmt}

theorem lays_sequence (inner : Lays tokens p fun s => s.LaidIn tokens) (stop : Token → Bool) :
    Lays tokens (sequenceUntil stop p) (Shares tokens) := by
  intro c ss d h
  refine fix_ok (motive := fun _ c ss d => Ahead tokens c.rest →
    ∃ own, Read c d own ∧ Shares tokens ss own) ?_ h
  intro again again_ok _ c ss d h ahead
  obtain ⟨next, c₁, first, h₁⟩ := bind_ok h
  obtain ⟨rfl, rfl⟩ := peek_ok first
  cases next : c₁.rest.head? with
  | none =>
    simp only [next] at h₁
    obtain ⟨rfl, rfl⟩ := pure_ok h₁
    exact ⟨[], .nil, shares_nil⟩
  | some token =>
    simp only [next] at h₁
    cases stops : stop token with
    | true =>
      simp only [stops, if_true] at h₁
      obtain ⟨rfl, rfl⟩ := pure_ok h₁
      exact ⟨[], .nil, shares_nil⟩
    | false =>
      simp only [stops, Bool.false_eq_true, if_false] at h₁
      obtain ⟨s, c₂, second, h₂⟩ := bind_ok h₁
      obtain ⟨others, c₃, third, h₃⟩ := bind_ok h₂
      obtain ⟨rfl, rfl⟩ := pure_ok h₃
      obtain ⟨left, read₁, laid⟩ := inner _ _ _ second ahead
      obtain ⟨right, read₂, shares⟩ := again_ok _ _ _ _ third (read₁.ahead ahead)
      have read := read₁.trans read₂
      exact ⟨_, read, shares.cons laid (read.own_ordered ahead)⟩

variable (sound : Sound p fun s => Construct.Derives (.statement s.shape))
  (inner : Lays tokens p fun s => s.LaidIn tokens)
include sound inner

theorem lays_block (role : BlockRole) :
    Lays tokens (block p role) fun body own => BlockLaidIn tokens own body := by
  intro c body d h ahead
  obtain ⟨opening, c₁, first, h₁⟩ := bind_ok h
  obtain ⟨opens, read₁⟩ := expect_read first
  obtain ⟨statements, c₂, second, h₂⟩ := bind_ok h₁
  obtain ⟨inside, read₂, shares⟩ := lays_sequence inner _ _ _ _ second (read₁.ahead ahead)
  have derived := read₂.derived (sequence_ok sound second).1
  obtain ⟨closing, c₃, third, h₃⟩ := bind_ok h₂
  obtain ⟨closes, read₃⟩ := expect_read third
  have read := read₁.trans (read₂.trans read₃)
  have own := read.own_ordered ahead
  have given : body = statements ∧ d = c₃ := by
    cases statements with
    | nil =>
      obtain ⟨_, _, failed, -⟩ := bind_ok h₃
      exact absurd failed fail_ne_ok
    | cons s rest => exact pure_ok h₃
  obtain ⟨rfl, rfl⟩ := given
  refine ⟨_, read, shares.spans.among [opening] [closing], ?_, shares.neat⟩
  obtain ⟨before, split⟩ := ahead.suffix
  rw [read.rest] at split
  rw [read₃.rest] at derived
  refine ⟨before, opening, inside, closing, d.rest, by simp [← split], opens, closes, derived, ?_⟩
  refine shares.spans.nests_between ?_ ?_
  · exact fun token member => List.rel_of_pairwise_cons own.ordered (by simp [member])
  · exact fun token member => (Token.ordered_append.mp own.back).2.2 token member closing (by simp)

theorem lays_functionDeclaration {s : Stmt} (begins : c.rest.head?.map (·.kind) = some .fnWord)
    (h : functionDeclaration p c = .ok (s, d)) (ahead : Ahead tokens c.rest) :
    ∃ own, Read c d own ∧ s.LaidIn tokens own := by
  have derived := functionDeclaration_ok sound begins h
  obtain ⟨taken, c₁, first, h₁⟩ := bind_ok h
  obtain ⟨keyword, rfl, read₁⟩ := keyword_read begins first
  obtain ⟨start, c₂, second, h₂⟩ := bind_ok h₁
  obtain ⟨rfl, rfl⟩ := lastSpan_token read₁ second
  obtain ⟨name, c₃, third, h₃⟩ := bind_ok h₂
  obtain ⟨-, read₂⟩ := expect_read third
  obtain ⟨opening, c₄, fourth, h₄⟩ := bind_ok h₃
  obtain ⟨-, read₃⟩ := expect_read fourth
  have before := read₁.trans (read₂.trans read₃)
  obtain ⟨params, c₅, fifth, h₅⟩ := bind_ok h₄
  obtain ⟨names, read₄, -⟩ := lays_params _ _ _ _ fifth (before.ahead ahead)
  obtain ⟨closing, c₆, sixth, h₆⟩ := bind_ok h₅
  obtain ⟨-, read₅⟩ := expect_read sixth
  have head := before.trans (read₄.trans read₅)
  obtain ⟨body, c₇, seventh, h₇⟩ := bind_ok h₆
  obtain ⟨block, read₆, laid⟩ := lays_block sound inner _ _ _ _ seventh (head.ahead ahead)
  have read := head.trans read₆
  obtain ⟨last, c₈, eighth, h₈⟩ := bind_ok h₇
  obtain ⟨rfl, extent⟩ := extent_read read ahead eighth
  obtain ⟨rfl, rfl⟩ := pure_ok h₈
  refine ⟨_, read, laidIn_of_read read ahead derived extent
    (laid.spans.mono (List.subset_append_right _ _)) ?_ ?_⟩
  · exact List.forall_mem_singleton.mpr laid.placed
  · intro part child
    cases child with
    | body member => exact laid.neat _ member

omit sound inner in
/-- The further conditions of a conditional and their blocks. -/
structure AlternativesLaid (tokens : List Token) (others : List Alternative)
    (own : List Token) : Prop where
  spans : Laid own (others.flatMap Alternative.inner)
  guards : ∀ a ∈ others, (Node.expr a.condition).Throughout (Node.Neat tokens)
  placed : ∀ a ∈ others, BlockPlaced tokens a.body
  neat : ∀ a ∈ others, ∀ s ∈ a.body, (Node.stmt s).Throughout (Node.Neat tokens)

theorem lays_alternatives : Lays tokens (alternatives p) (AlternativesLaid tokens) := by
  intro c others d h
  refine fix_ok (motive := fun _ c others d => Ahead tokens c.rest →
    ∃ own, Read c d own ∧ AlternativesLaid tokens others own) ?_ h
  intro again again_ok _ c others d h ahead
  obtain ⟨goes_on, c₁, first, h₁⟩ := bind_ok h
  cases goes_on with
  | false =>
    obtain ⟨rfl, rfl⟩ := pure_ok h₁
    obtain ⟨rfl, -⟩ := accept_false_ok first
    exact ⟨[], .nil, laid_nil, nofun, nofun, nofun⟩
  | true =>
    obtain ⟨word, -, read₁⟩ := accept_read first
    obtain ⟨guard, c₂, second, h₂⟩ := bind_ok h₁
    have ahead₁ := read₁.ahead ahead
    obtain ⟨condition, read₂, guarded⟩ := lays_condition _ _ _ _ second ahead₁
    obtain ⟨body, c₃, third, h₃⟩ := bind_ok h₂
    have ahead₂ := read₂.ahead ahead₁
    obtain ⟨block, read₃, blocked⟩ := lays_block sound inner _ _ _ _ third ahead₂
    obtain ⟨others, c₄, fourth, h₄⟩ := bind_ok h₃
    obtain ⟨right, read₄, laid⟩ := again_ok _ _ _ _ fourth (read₃.ahead ahead₂)
    obtain ⟨rfl, rfl⟩ := pure_ok h₄
    have behind := read₂.trans (read₃.trans read₄)
    have own := behind.own_ordered ahead₁
    have spans := guarded.span.append (blocked.spans.append laid.spans own.back) own
    refine ⟨_, read₁.trans behind, spans.mono (List.subset_append_right [word] _),
      List.forall_mem_cons.mpr ⟨guarded.neat, laid.guards⟩,
      List.forall_mem_cons.mpr ⟨blocked.placed, laid.placed⟩,
      List.forall_mem_cons.mpr ⟨blocked.neat, laid.neat⟩⟩

theorem lays_otherwise {goes_on : Bool} {c₁ : Cursor} {last : Option (List Stmt)}
    (first : accept .elseWord c = .ok (goes_on, c₁))
    (h : (if goes_on then some <$> block p .otherwise else pure none) c₁ = .ok (last, d))
    (ahead : Ahead tokens c.rest) :
    ∃ own, Read c d own ∧ Laid own ((last.getD []).map Stmt.span) ∧
      ∀ body ∈ last, BlockLaidIn tokens own body := by
  cases goes_on with
  | false =>
    obtain ⟨rfl, rfl⟩ := pure_ok h
    obtain ⟨rfl, -⟩ := accept_false_ok first
    exact ⟨[], .nil, laid_nil, nofun⟩
  | true =>
    simp only [if_true, map_eq_pure_bind] at h
    obtain ⟨body, c₂, second, h₂⟩ := bind_ok h
    obtain ⟨rfl, rfl⟩ := pure_ok h₂
    obtain ⟨word, -, read₁⟩ := accept_read first
    obtain ⟨block, read₂, laid⟩ := lays_block sound inner _ _ _ _ second (read₁.ahead ahead)
    have spans := laid.spans.mono (List.subset_append_right [word] block)
    refine ⟨_, read₁.trans read₂, spans, ?_⟩
    rintro _ ⟨⟩
    exact ⟨spans, laid.placed, laid.neat⟩

theorem lays_conditional {s : Stmt} (begins : c.rest.head?.map (·.kind) = some .ifWord)
    (h : conditional p c = .ok (s, d)) (ahead : Ahead tokens c.rest) :
    ∃ own, Read c d own ∧ s.LaidIn tokens own := by
  have derived := conditional_ok sound begins h
  obtain ⟨taken, c₁, first, h₁⟩ := bind_ok h
  obtain ⟨keyword, rfl, read₁⟩ := keyword_read begins first
  obtain ⟨start, c₂, second, h₂⟩ := bind_ok h₁
  obtain ⟨rfl, rfl⟩ := lastSpan_token read₁ second
  obtain ⟨guard, c₃, third, h₃⟩ := bind_ok h₂
  have ahead₁ := read₁.ahead ahead
  obtain ⟨condition, read₂, guarded⟩ := lays_condition _ _ _ _ third ahead₁
  obtain ⟨body, c₄, fourth, h₄⟩ := bind_ok h₃
  have ahead₂ := read₂.ahead ahead₁
  obtain ⟨block, read₃, blocked⟩ := lays_block sound inner _ _ _ _ fourth ahead₂
  obtain ⟨others, c₅, fifth, h₅⟩ := bind_ok h₄
  have ahead₃ := read₃.ahead ahead₂
  obtain ⟨middle, read₄, laid⟩ := lays_alternatives sound inner _ _ _ fifth ahead₃
  obtain ⟨goes_on, c₆, sixth, h₆⟩ := bind_ok h₅
  have ending : ((if goes_on then some <$> Parse.block p .otherwise else pure none) >>= fun last =>
      lastSpan >>= fun stop => pure (.branch guard body others last (keyword.span.cover stop))) c₆ =
      .ok (s, d) := by
    cases goes_on <;> exact h₆
  obtain ⟨last, c₇, seventh, h₇⟩ := bind_ok ending
  obtain ⟨final, read₅, last_spans, last_laid⟩ :=
    lays_otherwise sound inner sixth seventh (read₄.ahead ahead₃)
  have behind := read₂.trans (read₃.trans (read₄.trans read₅))
  have read := read₁.trans behind
  obtain ⟨stop, c₈, eighth, h₈⟩ := bind_ok h₇
  obtain ⟨rfl, extent⟩ := extent_read read ahead eighth
  obtain ⟨rfl, rfl⟩ := pure_ok h₈
  have own := behind.own_ordered ahead₁
  have after := laid.spans.append last_spans own.back.back
  have spans := guarded.span.append (blocked.spans.append after own.back) own
  refine ⟨_, read, laidIn_of_read read ahead derived extent
    (spans.mono (List.subset_append_right [keyword] _)) ?_ ?_⟩
  · refine List.forall_mem_cons.mpr ⟨blocked.placed, List.forall_mem_append.mpr ⟨?_, ?_⟩⟩
    · exact List.forall_mem_map.mpr laid.placed
    · exact fun block member => (last_laid block (Option.mem_toList.mp member)).placed
  · intro part child
    cases child with
    | condition => exact guarded.neat
    | branch member => exact blocked.neat _ member
    | guard other => exact laid.guards _ other
    | alternative other member => exact laid.neat _ other _ member
    | otherwise member => exact (last_laid _ rfl).neat _ member

theorem lays_statement_step :
    Lays tokens
      (do
        match (← peek?).map Token.kind with
        | some .letWord => declaration false
        | some .constWord => declaration true
        | some .fnWord => functionDeclaration p
        | some .ifWord => conditional p
        | _ => expressionStatement)
      fun s => s.LaidIn tokens := by
  intro c s d h ahead
  obtain ⟨next, c₁, first, h₁⟩ := bind_ok h
  obtain ⟨rfl, rfl⟩ := peek_ok first
  cases begins : c₁.rest.head?.map Token.kind with
  | none =>
    simp only [begins] at h₁
    exact lays_expressionStatement _ _ _ h₁ ahead
  | some kind =>
    simp only [begins] at h₁
    cases kind with
    | letWord => exact lays_declaration false begins h₁ ahead
    | constWord => exact lays_declaration true begins h₁ ahead
    | fnWord => exact lays_functionDeclaration sound inner begins h₁ ahead
    | ifWord => exact lays_conditional sound inner begins h₁ ahead
    | _ => exact lays_expressionStatement _ _ _ h₁ ahead

end

theorem lays_statement : Lays tokens statement fun s => s.LaidIn tokens := by
  intro c s d h
  refine (fix_ok (motive := fun _ c s d => (∃ ls, lexemes c.rest = ls ++ lexemes d.rest ∧
      Construct.Derives (.statement s.shape) ls (lexemes d.rest)) ∧
    (Ahead tokens c.rest → ∃ own, Read c d own ∧ s.LaidIn tokens own)) ?_ h).2
  intro again again_ok _ c s d h
  have sound : Sound (again ()) fun s => Construct.Derives (.statement s.shape) :=
    fun c s d h => (again_ok () c s d h).1
  have inner : Lays tokens (again ()) fun s => s.LaidIn tokens :=
    fun c s d h => (again_ok () c s d h).2
  exact ⟨sound_statement_step sound _ _ _ h, lays_statement_step sound inner _ _ _ h⟩

end Parse

end Syntax

end Scriptlet
