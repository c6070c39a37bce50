import Scriptlet.Proofs.Syntax.Readable.Expression

/-!
# Printed programs are read back

Statements are told apart by their first words. A conditional is the only statement that could go on
where it ends, with a word that begins no statement; so the statements of a block, between which
stand only blanks, are read one after the other (`statements_render`), and the reader gives every
program back whose words and literals it understands (`program_render`).
-/
namespace Scriptlet

open Token (Delimited delimited_cons Kind)

abbrev Stmt.Readable (s : Stmt) : Prop := (Node.stmt s).Throughout Node.Readable

abbrev Alternative.Readable (a : Alternative) : Prop :=
  a.condition.Readable ∧ ∀ s ∈ a.body, s.Readable

namespace Readback

variable {l r : List Char}

theorem word_reserved {keyword : String} (letters : keyword.toList.all Text.isAlphabetic = true)
    (ends : Delimited r) : word (keyword.toList ++ r) = (keyword, r) :=
  piece_append (List.all_eq_true.mp letters) fun c head => (ends c head).1

theorem delimited_blank : Delimited (" ".toList ++ r) := delimited_cons ⟨rfl, rfl⟩

/-! How printed statements begin, and what ends them. -/

/-- A text that neither closes a block nor continues a conditional, whatever blank is before it. -/
structure Opens (l : List Char) : Prop where
  nonempty : l ≠ []
  no_brace : l.head? ≠ some '\x7d'
  no_else : (word l).1 ≠ "else"
  no_elseIf : (word l).1 ≠ "elseif"

theorem Begins.opens (begins : Begins l) : Opens l where
  nonempty := by
    rintro rfl
    generalize empty : ([] : List Char) = l at begins
    cases begins with
    | mark | digit => cases empty
    | name is_name => exact is_name.toList_ne_nil (List.append_eq_nil_iff.mp empty.symm).1
  no_brace := begins.head (.inr (.inr rfl))
  no_else same := begins.word_free (same ▸ by decide)
  no_elseIf same := begins.word_free (same ▸ by decide)

theorem opens_keyword (keyword : String)
    (is_keyword : keyword = "let" ∨ keyword = "const" ∨ keyword = "fn" ∨ keyword = "if") :
    Opens (keyword.toList ++ (" ".toList ++ r)) := by
  have letters : keyword.toList.all Text.isAlphabetic = true := by
    rcases is_keyword with rfl | rfl | rfl | rfl <;> decide
  have other : keyword ≠ "else" ∧ keyword ≠ "elseif" := by
    rcases is_keyword with rfl | rfl | rfl | rfl <;> decide
  have first := word_reserved letters (delimited_blank (r := r))
  constructor
  · rcases is_keyword with rfl | rfl | rfl | rfl <;> nofun
  · rcases is_keyword with rfl | rfl | rfl | rfl <;> nofun
  · rw [first]
    exact other.1
  · rw [first]
    exact other.2

theorem opens_of_readable {s : Stmt} (readable : s.Readable) (ends : Delimited r) :
    Opens (s.render.toList ++ r) := by
  cases s with
  | declare name constant value span =>
    cases value <;> cases constant <;>
      simp only [Stmt.render, String.toList_append, List.append_assoc]
    · exact opens_keyword "let" (.inl rfl)
    · exact opens_keyword "const" (.inr (.inl rfl))
    · exact opens_keyword "let" (.inl rfl)
    · exact opens_keyword "const" (.inr (.inl rfl))
  | function name params body span =>
    simp only [Stmt.render, String.toList_append, List.append_assoc]
    exact opens_keyword "fn" (.inr (.inr (.inl rfl)))
  | branch condition body others last span =>
    cases last <;>
    · simp only [Stmt.render, String.toList_append, List.append_assoc]
      exact opens_keyword "if" (.inr (.inr (.inr rfl)))
  | expr value span => exact (begins_of_readable value (readable.child .value) ends).opens

/-- What ends a statement: neither an expression nor a conditional goes on behind it. -/
structure Closed (r : List Char) : Prop where
  final : Final r
  no_elseIf : skip " elseif (" r = none
  no_else : skip " else " r = none

theorem closed_nil : Closed [] := ⟨nofun, rfl, rfl⟩

theorem closed_line : Closed ("\n".toList ++ r) := ⟨final_cons (by decide), rfl, rfl⟩

theorem closed_brace : Closed (" \x7d".toList ++ r) := ⟨final_cons (by decide), rfl, rfl⟩

theorem Opens.closed_blank (opens : Opens l) : Closed (" ".toList ++ l) where
  final := final_cons (by decide)
  no_elseIf := by
    refine Option.eq_none_iff_forall_ne_some.mpr fun rest found => opens.no_elseIf ?_
    have spelled : " ".toList ++ l = " elseif (".toList ++ rest := skip_eq_some.mp found
    have behind : l = "elseif".toList ++ (" (".toList ++ rest) := List.tail_eq_of_cons_eq spelled
    have ends : Delimited (" (".toList ++ rest) := delimited_cons ⟨rfl, rfl⟩
    rw [behind, word_reserved (by decide) ends]
  no_else := by
    refine Option.eq_none_iff_forall_ne_some.mpr fun rest found => opens.no_else ?_
    have spelled : " ".toList ++ l = " else ".toList ++ rest := skip_eq_some.mp found
    have behind : l = "else".toList ++ (" ".toList ++ rest) := List.tail_eq_of_cons_eq spelled
    rw [behind, word_reserved (by decide) delimited_blank]

theorem closed_renderRest {ss : List Stmt} (readable : ∀ s ∈ ss, s.Readable) :
    Closed ((renderRest ss).toList ++ r) := by
  cases ss with
  | nil => exact closed_brace
  | cons s rest =>
    have ends : Delimited ((renderRest rest).toList ++ r) := by
      cases rest with
      | nil => exact closed_brace.final.delimited
      | cons next rest =>
        simp only [renderRest, String.toList_append, List.append_assoc]
        exact delimited_blank
    simp only [renderRest, String.toList_append, List.append_assoc]
    exact (opens_of_readable (readable s List.mem_cons_self) ends).closed_blank

/-! One step of the reader for each kind of statement. -/

section
variable {x : Stmt × List Char}

/-- What the first word decides on reads the rest. -/
theorem stmt_of_keyword {keyword : String} {read : Nat → List Char → Option (Stmt × List Char)}
    (letters : keyword.toList.all Text.isAlphabetic = true)
    (chosen : ∀ n text rest, word text = (keyword, rest) → stmt (n + 1) text = read n rest)
    (reads : Gives (read · (" ".toList ++ l)) x) :
    Gives (stmt · (keyword.toList ++ (" ".toList ++ l))) x := by
  refine gives_of_deeper ?_
  filter_upwards [reads] with n reads
  exact (chosen n _ _ (word_reserved letters delimited_blank)).trans reads

theorem stmt_let (reads : Gives (declaration · false (" ".toList ++ l)) x) :
    Gives (stmt · ("let".toList ++ (" ".toList ++ l))) x :=
  stmt_of_keyword (by decide) (fun n text rest first => by simp only [stmt, first]) reads

theorem stmt_const (reads : Gives (declaration · true (" ".toList ++ l)) x) :
    Gives (stmt · ("const".toList ++ (" ".toList ++ l))) x :=
  stmt_of_keyword (by decide) (fun n text rest first => by simp only [stmt, first]) reads

theorem stmt_fn (reads : Gives (function · (" ".toList ++ l)) x) :
    Gives (stmt · ("fn".toList ++ (" ".toList ++ l))) x :=
  stmt_of_keyword (by decide) (fun n text rest first => by simp only [stmt, first]) reads

theorem stmt_if (reads : Gives (conditional · (" ".toList ++ l)) x) :
    Gives (stmt · ("if".toList ++ (" ".toList ++ l))) x :=
  stmt_of_keyword (by decide) (fun n text rest first => by simp only [stmt, first]) reads

end

theorem stmt_expr {e : Expr} (begins : Begins l) (reads : Gives (expr · l) (e, r)) :
    Gives (stmt · l) (.expr e .unplaced, r) := by
  have keywords : ∀ keyword ∈ ["let", "const", "fn", "if"], keyword ∈ Kind.reserved.map (·.1) := by
    decide
  have other : ∀ keyword ∈ ["let", "const", "fn", "if"], ∀ rest, word l ≠ (keyword, rest) :=
    fun keyword listed rest same => begins.word_free (same ▸ keywords keyword listed)
  refine gives_of_deeper ?_
  filter_upwards [reads] with n reads
  rw [stmt]
  split
  · next same => exact absurd same (other "let" (by decide) _)
  · next same => exact absurd same (other "const" (by decide) _)
  · next same => exact absurd same (other "fn" (by decide) _)
  · next same => exact absurd same (other "if" (by decide) _)
  · simp only [reads, Option.bind_eq_bind, Option.bind_some]
    rfl

theorem declaration_value {name : String} {e : Expr} (constant : Bool) (is_name : IsName name)
    (reads : Gives (expr · l) (e, r)) :
    Gives (declaration · constant (" ".toList ++ (name.toList ++ (" = ".toList ++ l))))
      (.declare name constant (some e) .unplaced, r) := by
  have named : word (name.toList ++ (" = ".toList ++ l)) = (name, " = ".toList ++ l) :=
    word_name is_name delimited_blank
  filter_upwards [reads] with n reads
  rw [declaration]
  simp only [skip_append, named, Option.bind_eq_bind, Option.bind_some]
  change (skip " = " (" = ".toList ++ l) >>= fun l =>
    expr n l >>= fun x => some (Stmt.declare name constant (some x.1) .unplaced, x.2)) = _
  rw [skip_append, Option.bind_eq_bind, Option.bind_some, reads]
  rfl

theorem declaration_only {name : String} (constant : Bool) (is_name : IsName name) :
    Gives (declaration · constant (" ".toList ++ (name.toList ++ (";".toList ++ r))))
      (.declare name constant none .unplaced, r) := by
  have named : word (name.toList ++ (";".toList ++ r)) = (name, ";".toList ++ r) :=
    word_name is_name (delimited_cons ⟨rfl, rfl⟩)
  refine .of_forall fun n => ?_
  simp only [declaration, skip_append, named, Option.bind_eq_bind, Option.bind_some]
  rfl

theorem function_of {name : String} {args : List Expr} {params : List String} {ss : List Stmt}
    {list body : List Char} (is_name : IsName name)
    (listed : Gives (Readback.args · list) (args, " ".toList ++ body))
    (names : args.mapM name? = some params) (block : Gives (block · body) (ss, r)) :
    Gives (function · (" ".toList ++ (name.toList ++ ("(".toList ++ list))))
      (.function name params ss .unplaced, r) := by
  have named : word (name.toList ++ ("(".toList ++ list)) = (name, "(".toList ++ list) :=
    word_name is_name (delimited_cons ⟨rfl, rfl⟩)
  refine gives_of_deeper ?_
  filter_upwards [listed, block] with n listed block
  simp only [function, skip_append, named, listed, names, block, Option.bind_eq_bind,
    Option.bind_some]
  rfl

theorem otherwise_none (ends : skip " else " r = none) : Gives (otherwise · r) (none, r) := by
  refine gives_of_deeper (.of_forall fun n => ?_)
  rw [otherwise, ends]

theorem otherwise_some {ss : List Stmt} (block : Gives (block · l) (ss, r)) :
    Gives (otherwise · (" else ".toList ++ l)) (some ss, r) := by
  refine gives_of_deeper ?_
  filter_upwards [block] with n block
  rw [otherwise, skip_append]
  simp only [block, Option.bind_eq_bind, Option.bind_some]
  rfl

theorem conditional_of {first : Alternative} {as : List Alternative} {last : Option (List Stmt)}
    {middle final : List Char} (guard : Gives (guarded · l) (first, middle))
    (others : Gives (alternatives · middle) (as, final))
    (ending : Gives (otherwise · final) (last, r)) :
    Gives (conditional · (" (".toList ++ l))
      (.branch first.condition first.body as last .unplaced, r) := by
  refine gives_of_deeper ?_
  filter_upwards [guard, others, ending] with n guard others ending
  simp only [conditional, skip_append, guard, others, ending, Option.bind_eq_bind,
    Option.bind_some]
  rfl

theorem guarded_of {e : Expr} {ss : List Stmt} {body : List Char}
    (condition : Gives (expr · l) (e, ") ".toList ++ body)) (block : Gives (block · body) (ss, r)) :
    Gives (guarded · l) (.mk e ss, r) := by
  refine gives_of_deeper ?_
  filter_upwards [condition, block] with n condition block
  simp only [guarded, condition, skip_append, block, Option.bind_eq_bind, Option.bind_some]
  rfl

theorem alternatives_none (ends : skip " elseif (" r = none) :
    Gives (alternatives · r) ([], r) := by
  refine gives_of_deeper (.of_forall fun n => ?_)
  rw [alternatives, ends]

theorem alternatives_more {a : Alternative} {as : List Alternative} {middle : List Char}
    (first : Gives (guarded · l) (a, middle)) (rest : Gives (alternatives · middle) (as, r)) :
    Gives (alternatives · (" elseif (".toList ++ l)) (a :: as, r) := by
  refine gives_of_deeper ?_
  filter_upwards [first, rest] with n first rest
  rw [alternatives, skip_append]
  simp only [first, rest, Option.bind_eq_bind, Option.bind_some]
  rfl

theorem statements_end : Gives (statements · (" \x7d".toList ++ r)) ([], r) := by
  refine gives_of_deeper (.of_forall fun n => ?_)
  rw [statements, skip_append]

theorem statements_more {s : Stmt} {ss : List Stmt} {middle : List Char}
    (opens : l.head? ≠ some '\x7d') (first : Gives (stmt · l) (s, middle))
    (rest : Gives (statements · middle) (ss, r)) :
    Gives (statements · (" ".toList ++ l)) (s :: ss, r) := by
  have no_end : skip " \x7d" (" ".toList ++ l) = none := by
    refine Option.eq_none_iff_forall_ne_some.mpr fun back found => opens ?_
    have spelled : " ".toList ++ l = " \x7d".toList ++ back := skip_eq_some.mp found
    have behind : l = '\x7d' :: back := List.tail_eq_of_cons_eq spelled
    rw [behind]
    rfl
  refine gives_of_deeper ?_
  filter_upwards [first, rest] with n first rest
  rw [statements, no_end]
  simp only [skip_append, first, rest, Option.bind_eq_bind, Option.bind_some]
  rfl

theorem block_of {ss : List Stmt} (inside : Gives (statements · l) (ss, r)) :
    Gives (block · ("\x7b".toList ++ l)) (ss, r) := by
  refine gives_of_deeper ?_
  filter_upwards [inside] with n inside
  rw [block, skip_append, Option.bind_eq_bind, Option.bind_some, inside]

theorem lines_last {s : Stmt} (only : Gives (stmt · l) (s, [])) : Gives (lines · l) [s] := by
  refine gives_of_deeper ?_
  filter_upwards [only] with n only
  rw [lines, only]
  rfl

theorem lines_more {s : Stmt} {ss : List Stmt} {others : List Char}
    (first : Gives (stmt · l) (s, "\n".toList ++ others)) (rest : Gives (lines · others) ss) :
    Gives (lines · l) (s :: ss) := by
  refine gives_of_deeper ?_
  filter_upwards [first, rest] with n first rest
  rw [lines, first]
  change (skip "\n" ("\n".toList ++ others) >>= fun l =>
    lines n l >>= fun ss => some (s :: ss)) = _
  rw [skip_append, Option.bind_eq_bind, Option.bind_some, rest]
  rfl

/-! Along the tree. -/

/-- The text of a statement is read, whatever ends the statement. -/
def StmtReads (s : Stmt) : Prop :=
  ∀ r, Closed r → Gives (stmt · (s.render.toList ++ r)) (s.shape, r)

theorem statements_render {ss : List Stmt} (readable : ∀ s ∈ ss, s.Readable)
    (all : ∀ s ∈ ss, StmtReads s) :
    Gives (statements · ((renderRest ss).toList ++ r)) (stmtShapes ss, r) := by
  induction ss with
  | nil => exact statements_end
  | cons s rest ih =>
    rw [List.forall_mem_cons] at readable all
    have closed : Closed ((renderRest rest).toList ++ r) := closed_renderRest readable.2
    have opens := opens_of_readable readable.1 closed.final.delimited
    simp only [renderRest, String.toList_append, List.append_assoc]
    exact statements_more opens.no_brace (all.1 _ closed) (ih readable.2 all.2)

theorem block_render {ss : List Stmt} (readable : ∀ s ∈ ss, s.Readable)
    (all : ∀ s ∈ ss, StmtReads s) :
    Gives (block · ((renderBlock ss).toList ++ r)) (stmtShapes ss, r) := by
  have text : (renderBlock ss).toList ++ r = "\x7b".toList ++ ((renderRest ss).toList ++ r) := by
    cases ss with
    | nil => rfl
    | cons s rest =>
      simp only [renderBlock, renderRest, String.toList_append, List.append_assoc]
      rfl
  rw [text]
  exact block_of (statements_render readable all)

/-- The condition of an alternative is read with its block. -/
def AlternativeReads (a : Alternative) : Prop :=
  ∀ r, Gives (guarded ·
    (a.condition.render.toList ++ (") ".toList ++ ((renderBlock a.body).toList ++ r)))) (a.shape, r)

theorem alternativeReads_of {a : Alternative} (readable : a.Readable)
    (all : ∀ s ∈ a.body, StmtReads s) : AlternativeReads a := by
  obtain ⟨condition, body⟩ := a
  exact fun r => guarded_of
    ((reads_of_readable condition readable.1).final (final_cons (by decide)))
    (block_render readable.2 all)

theorem alternatives_render {as : List Alternative} (all : ∀ a ∈ as, AlternativeReads a)
    (ends : skip " elseif (" r = none) :
    Gives (alternatives · ((renderAlternatives as).toList ++ r)) (alternativeShapes as, r) := by
  induction as with
  | nil => exact alternatives_none ends
  | cons a rest ih =>
    obtain ⟨condition, body⟩ := a
    rw [List.forall_mem_cons] at all
    simp only [renderAlternatives, Alternative.render, String.toList_append, List.append_assoc]
    exact alternatives_more (all.1 _) (ih all.2)

/-- The arguments that are printed as some parameters are. -/
def asArgs (params : List String) : List Expr := params.map fun param => .name param .unplaced

theorem renderArgs_asArgs (params : List String) : renderArgs (asArgs params) = params := by
  induction params with
  | nil => rfl
  | cons param rest ih => exact congrArg (param :: ·) ih

theorem mapM_name? (params : List String) :
    (exprShapes (asArgs params)).mapM name? = some params := by
  induction params with
  | nil => rfl
  | cons param rest ih =>
    simp only [asArgs, List.map_cons, exprShapes, Expr.shape, List.mapM_cons, name?] at ih ⊢
    rw [ih]
    rfl

theorem params_render {params : List String} (names : ∀ param ∈ params, IsName param) :
    Gives (args · ((", ".intercalate params).toList ++ (")".toList ++ r)))
      (exprShapes (asArgs params), r) := by
  have readable : ∀ e ∈ asArgs params, e.Readable := by
    intro e member
    obtain ⟨param, listed, rfl⟩ := List.mem_map.mp member
    exact Node.throughout_of ⟨names param listed, trivial⟩ nofun
  have list := args_render readable (fun e member => reads_of_readable e (readable e member)) (r := r)
  rwa [renderArgs_asArgs] at list

mutual

theorem stmt_render : ∀ s : Stmt, s.Readable → StmtReads s
  | .declare name constant (some value) span, readable, r, closed => by
    have reads := (reads_of_readable value (readable.child .initializer)).final closed.final
    have read := declaration_value constant readable.own.1 reads
    cases constant with
    | true =>
      simp only [Stmt.render, if_true, String.toList_append, List.append_assoc]
      exact stmt_const read
    | false =>
      simp only [Stmt.render, String.toList_append, List.append_assoc]
      exact stmt_let read
  | .declare name constant none span, readable, r, closed => by
    have read := declaration_only constant readable.own.1 (r := r)
    cases constant with
    | true =>
      simp only [Stmt.render, if_true, String.toList_append, List.append_assoc]
      exact stmt_const read
    | false =>
      simp only [Stmt.render, String.toList_append, List.append_assoc]
      exact stmt_let read
  | .function name params body span, readable, r, closed => by
    have inside : ∀ s ∈ body, s.Readable := fun s member => readable.child (.body member)
    have block := block_render inside (stmts_render body inside) (r := r)
    have listed := params_render readable.own.1.2
      (r := " ".toList ++ ((renderBlock body).toList ++ r))
    simp only [Stmt.render, String.toList_append, List.append_assoc]
    exact stmt_fn (function_of readable.own.1.1 listed (mapM_name? params) block)
  | .branch condition body others none span, readable, r, closed => by
    have inside : ∀ s ∈ body, s.Readable := fun s member => readable.child (.branch member)
    have first := alternativeReads_of (a := .mk condition body)
      ⟨readable.child .condition, inside⟩ (stmts_render body inside)
      ((renderAlternatives others).toList ++ r)
    have each := alternatives_reads others fun a other => ⟨readable.child (.guard other),
      fun s member => readable.child (.alternative other member)⟩
    have rest := alternatives_render each closed.no_elseIf
    simp only [Stmt.render, String.toList_append, List.append_assoc]
    exact stmt_if (conditional_of first rest (otherwise_none closed.no_else))
  | .branch condition body others (some last) span, readable, r, closed => by
    have inside : ∀ s ∈ body, s.Readable := fun s member => readable.child (.branch member)
    have first := alternativeReads_of (a := .mk condition body)
      ⟨readable.child .condition, inside⟩ (stmts_render body inside)
      ((renderAlternatives others).toList ++ (" else ".toList ++ ((renderBlock last).toList ++ r)))
    have each := alternatives_reads others fun a other => ⟨readable.child (.guard other),
      fun s member => readable.child (.alternative other member)⟩
    have rest := alternatives_render each
      (r := " else ".toList ++ ((renderBlock last).toList ++ r)) rfl
    have inside' : ∀ s ∈ last, s.Readable := fun s member => readable.child (.otherwise member)
    have block := block_render inside' (stmts_render last inside') (r := r)
    simp only [Stmt.render, String.toList_append, List.append_assoc]
    exact stmt_if (conditional_of first rest (otherwise_some block))
  | .expr value span, readable, r, closed => by
    have value_readable : value.Readable := readable.child .value
    have begins := begins_of_readable value value_readable closed.final.delimited
    exact stmt_expr begins ((reads_of_readable value value_readable).final closed.final)

theorem stmts_render : ∀ ss : List Stmt, (∀ s ∈ ss, s.Readable) → ∀ s ∈ ss, StmtReads s
  | [], _ => nofun
  | first :: rest, readable => by
    rw [List.forall_mem_cons] at readable ⊢
    exact ⟨stmt_render first readable.1, stmts_render rest readable.2⟩

theorem alternatives_reads : ∀ as : List Alternative, (∀ a ∈ as, a.Readable) →
    ∀ a ∈ as, AlternativeReads a
  | [], _ => nofun
  | .mk condition body :: rest, readable => by
    rw [List.forall_mem_cons] at readable ⊢
    exact ⟨alternativeReads_of readable.1 (stmts_render body readable.1.2),
      alternatives_reads rest readable.2⟩

end

theorem render_cons_cons (s next : Stmt) (rest : List Stmt) :
    (Program.render (s :: next :: rest)).toList =
      s.render.toList ++ ("\n".toList ++ (Program.render (next :: rest)).toList) := by
  simp only [Program.render, List.map_cons, String.intercalate_cons_cons, String.toList_append,
    List.append_assoc]

theorem lines_render {s : Stmt} {ss : List Stmt} (readable : ∀ t ∈ s :: ss, t.Readable) :
    Gives (lines · (Program.render (s :: ss)).toList) (stmtShapes (s :: ss)) := by
  induction ss generalizing s with
  | nil =>
    have text : (Program.render [s]).toList = s.render.toList ++ [] := by
      rw [Program.render, List.map_singleton, String.intercalate_singleton, List.append_nil]
    rw [text]
    exact lines_last (stmt_render s (readable s List.mem_cons_self) [] closed_nil)
  | cons next rest ih =>
    rw [List.forall_mem_cons] at readable
    rw [render_cons_cons]
    exact lines_more (stmt_render s readable.1 _ closed_line) (ih readable.2)

/-- The text of a program begins with that of its first statement. -/
theorem render_cons (s : Stmt) (ss : List Stmt) :
    ∃ back, (Program.render (s :: ss)).toList = s.render.toList ++ back := by
  cases ss with
  | nil => exact ⟨[], by simp [Program.render]⟩
  | cons next rest => exact ⟨_, render_cons_cons s next rest⟩

/-- The text of a program is read as the program, apart from the places of its nodes. -/
theorem program_render {p : Program} (readable : ∀ s ∈ p, s.Readable) :
    Gives (program · (Program.render p)) (Program.shape p) := by
  cases p with
  | nil => exact .of_forall fun n => rfl
  | cons s rest =>
    have opens := opens_of_readable (readable s List.mem_cons_self) Token.delimited_nil
    obtain ⟨back, text⟩ := render_cons s rest
    filter_upwards [lines_render readable] with n reads
    rw [program]
    split
    · next empty =>
      rw [empty] at text
      exact absurd (List.append_eq_nil_iff.mp text.symm).1
        fun none_ => opens.nonempty (by rw [none_, List.append_nil])
    · exact reads

end Readback

end Scriptlet
