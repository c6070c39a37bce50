import Scriptlet.Proofs.Syntax.Tiling.Placement

/-!
# Spans of expressions

Each parser of expressions lays what it gives along the tokens that it reads, if the parser of whole
expressions does. Parentheses are read and leave no node, so that the span of an expression begins
and ends somewhere in its tokens, not always with the first and the last of them. A parser that goes
on with a tree already read gets the tokens of that tree too.
-/
namespace Scriptlet

open Token (Ahead Laid laid_nil laid_token)

/-- The span of an expression lies in its own tokens, and all that stands inside of it is neat. -/
structure Expr.LaidIn (tokens own : List Token) (e : Expr) : Prop where
  span : Laid own [e.span]
  neat : (Node.expr e).Throughout (Node.Neat tokens)

namespace Expr

variable {tokens own more : List Token} {e : Expr}

theorem LaidIn.mono (h : e.LaidIn tokens own) (sub : own ⊆ more) : e.LaidIn tokens more :=
  ⟨h.span.mono sub, h.neat⟩

/-- An expression without parts. -/
theorem laidIn_leaf (span : Laid own [e.span]) (inner : e.inner = [])
    (properties : e.properties = []) (childless : ∀ part, ¬(Node.expr e).Child part) :
    e.LaidIn tokens own := by
  refine ⟨span, Node.throughout_of ⟨?_, ?_⟩ ?_⟩
  · exact inner ▸ Span.nests_nil _
  · simp [properties]
  · exact fun part child => absurd child (childless part)

end Expr

namespace Syntax

namespace Parse

variable {α : Type} {c d : Cursor} {tokens : List Token}

/-- A parser of expressions that lays them along their tokens. -/
abbrev LaysExpr (tokens : List Token) (p : Parse Expr) : Prop :=
  Lays tokens p fun e own => e.LaidIn tokens own

/-! Items with commas between. -/

section
variable {item : Parse α} {spans : α → List Span} {good : α → Prop}

/-- Items lie along the tokens one behind the other, whatever stands between. -/
theorem lays_commaSeparated (items : Lays tokens item fun a own => Laid own (spans a) ∧ good a) :
    Lays tokens (commaSeparated item) fun as own => Laid own (as.flatMap spans) ∧ ∀ a ∈ as, good a := by
  intro c as d h
  refine fix_ok (motive := fun _ c as d => Ahead tokens c.rest → ∃ own, Read c d own ∧
    Laid own (as.flatMap spans) ∧ ∀ a ∈ as, good a) ?_ h
  intro again again_ok _ c as d h ahead
  obtain ⟨a, c₁, first, h⟩ := bind_ok h
  obtain ⟨left, read, laid, is_good⟩ := items _ _ _ first ahead
  have ahead₁ := read.ahead ahead
  obtain ⟨goes_on, c₂, second, h⟩ := bind_ok h
  cases goes_on with
  | false =>
    obtain ⟨rfl, rfl⟩ := pure_ok h
    obtain ⟨rfl, -⟩ := accept_false_ok second
    exact ⟨left, read, by simpa using laid, by simpa using is_good⟩
  | true =>
    obtain ⟨others, c₃, third, h⟩ := bind_ok h
    obtain ⟨rfl, rfl⟩ := pure_ok h
    obtain ⟨comma, -, read₁⟩ := accept_read second
    obtain ⟨right, read₂, laid', are_good⟩ := again_ok _ _ _ _ third (read₁.ahead ahead₁)
    have behind := read₁.trans read₂
    have all := read.trans behind
    refine ⟨_, all, ?_, List.forall_mem_cons.mpr ⟨is_good, are_good⟩⟩
    have skipped := laid'.mono (List.subset_append_right [comma] right)
    exact laid.append skipped (all.own_ordered ahead)

theorem lays_listUntil {closing : Token.Kind}
    (items : Lays tokens item fun a own => Laid own (spans a) ∧ good a) :
    Lays tokens (listUntil closing item) fun as own =>
      Laid own (as.flatMap spans) ∧ ∀ a ∈ as, good a := by
  intro c as d h ahead
  obtain ⟨empty, c₁, first, h⟩ := bind_ok h
  obtain rfl := nextIs_ok first
  cases empty with
  | true =>
    obtain ⟨rfl, rfl⟩ := pure_ok h
    exact ⟨[], .nil, laid_nil, nofun⟩
  | false => exact lays_commaSeparated items _ _ _ h ahead

end

/-! Expressions, given a parser of whole expressions. -/

section
variable {f : Parse Expr}

theorem lays_group (inner : LaysExpr tokens f) (opening : Token) : LaysExpr tokens (group f opening) := by
  intro c e d h ahead
  obtain ⟨empty, c', first, h⟩ := bind_ok h
  obtain rfl := nextIs_ok first
  have read : (f >>= fun e => expect .groupEnd >>= fun _ => pure e) c' = .ok (e, d) := by
    cases empty with
    | true =>
      obtain ⟨_, _, -, h⟩ := bind_ok h
      obtain ⟨_, _, failed, -⟩ := bind_ok h
      exact absurd failed fail_ne_ok
    | false => exact h
  obtain ⟨e', c₁, second, h⟩ := bind_ok read
  obtain ⟨closing, c₂, third, h⟩ := bind_ok h
  obtain ⟨rfl, rfl⟩ := pure_ok h
  obtain ⟨own, read₁, laid⟩ := inner _ _ _ second ahead
  obtain ⟨-, read₂⟩ := expect_read third
  exact ⟨_, read₁.trans read₂, laid.mono (List.subset_append_left _ _)⟩

theorem lays_primary (inner : LaysExpr tokens f) : LaysExpr tokens (primary f) := by
  intro c e d h ahead
  obtain ⟨taken, c₁, first, h⟩ := bind_ok h
  cases taken with
  | none =>
    obtain ⟨_, _, _, h⟩ := bind_ok h
    exact absurd h fail_ne_ok
  | some token =>
    obtain ⟨-, read⟩ := take_read first
    have here : Laid [token] [token.span] :=
      laid_token ((read.own_ordered ahead).nonempty token List.mem_cons_self)
    cases is_kind : token.kind with
    | name =>
      simp only [is_kind] at h
      obtain ⟨rfl, rfl⟩ := pure_ok h
      exact ⟨_, read, Expr.laidIn_leaf here rfl rfl nofun⟩
    | number =>
      simp only [is_kind] at h
      cases denotes : Number.ofNumeral? token.text.toList with
      | none =>
        simp only [denotes] at h
        exact absurd h fail_ne_ok
      | some value =>
        simp only [denotes] at h
        obtain ⟨rfl, rfl⟩ := pure_ok h
        exact ⟨_, read, Expr.laidIn_leaf here rfl rfl nofun⟩
    | text =>
      simp only [is_kind] at h
      obtain ⟨rfl, rfl⟩ := pure_ok h
      exact ⟨_, read, Expr.laidIn_leaf here rfl rfl nofun⟩
    | openParen =>
      simp only [is_kind] at h
      obtain ⟨own, read', laid⟩ := lays_group inner token _ _ _ h (read.ahead ahead)
      exact ⟨_, read.trans read', laid.mono (List.subset_append_right _ _)⟩
    | _ =>
      simp only [is_kind] at h
      exact absurd h fail_ne_ok

/-- What is made of a tree already read: `seen` are the tokens of that tree. -/
def Extends (tokens : List Token) (p : Expr → Parse Expr) : Prop :=
  ∀ e c e' d, p e c = .ok (e', d) → ∀ seen, Ahead tokens (seen ++ c.rest) → e.LaidIn tokens seen →
    ∃ more, Read c d more ∧ e'.LaidIn tokens (seen ++ more)

theorem LaysExpr.bind {p : Parse Expr} {q : Expr → Parse Expr} (first : LaysExpr tokens p)
    (second : Extends tokens q) : LaysExpr tokens (p >>= q) := by
  intro c e d h ahead
  obtain ⟨e', c₁, run, h⟩ := bind_ok h
  obtain ⟨own, read, laid⟩ := first _ _ _ run ahead
  obtain ⟨more, read', laid'⟩ := second _ _ _ _ h own (read.rest ▸ ahead) laid
  exact ⟨_, read.trans read', laid'⟩

theorem extends_members : Extends tokens members := by
  intro object c e d h
  refine fix_ok (motive := fun object c e d => ∀ seen, Ahead tokens (seen ++ c.rest) →
    object.LaidIn tokens seen → ∃ more, Read c d more ∧ e.LaidIn tokens (seen ++ more)) ?_ h
  intro again again_ok object c e d h seen ahead laid
  obtain ⟨goes_on, c₁, first, h⟩ := bind_ok h
  cases goes_on with
  | false =>
    obtain ⟨rfl, rfl⟩ := pure_ok h
    obtain ⟨rfl, -⟩ := accept_false_ok first
    exact ⟨[], .nil, by simpa using laid⟩
  | true =>
    obtain ⟨property, c₂, second, h⟩ := bind_ok h
    obtain ⟨period, -, read₁⟩ := accept_read first
    obtain ⟨-, read₂⟩ := expect_read second
    have read := read₁.trans read₂
    have later := read.after ahead
    have name : Laid ([period] ++ [property]) [property.span] :=
      laid_nil.concat_token later.front.back
    have both := laid.span.append name later.front
    have made : (Expr.member object property.text (object.span.cover property.span)).LaidIn tokens
        (seen ++ ([period] ++ [property])) := by
      refine ⟨both.cover, Node.throughout_of ⟨?_, nofun⟩ ?_⟩
      · exact both.nests_cover.sublist (List.sublist_append_left [object.span] _)
      · rintro _ ⟨⟩
        exact laid.neat
    obtain ⟨more, read₃, laid'⟩ := again_ok _ _ _ _ h _ later made
    exact ⟨_, read.trans read₃, by rwa [← List.append_assoc]⟩

theorem lays_member (inner : LaysExpr tokens f) : LaysExpr tokens (member f) :=
  (lays_primary inner).bind extends_members

theorem lays_args (inner : LaysExpr tokens f) (closing : Token.Kind) :
    Lays tokens (listUntil closing f) fun args own => Laid own (args.map Expr.span) ∧
      ∀ a ∈ args, (Node.expr a).Throughout (Node.Neat tokens) := by
  have items : Lays tokens f fun e own => Laid own [e.span] ∧
      (Node.expr e).Throughout (Node.Neat tokens) := by
    intro c e d h ahead
    obtain ⟨own, read, laid⟩ := inner _ _ _ h ahead
    exact ⟨own, read, laid.span, laid.neat⟩
  intro c args d h ahead
  obtain ⟨own, read, laid, neat⟩ := lays_listUntil items _ _ _ h ahead
  rw [← List.map_eq_flatMap] at laid
  exact ⟨own, read, laid, neat⟩

theorem extends_calls (inner : LaysExpr tokens f) : Extends tokens (calls f) := by
  intro callee c e d h
  refine fix_ok (motive := fun callee c e d => ∀ seen, Ahead tokens (seen ++ c.rest) →
    callee.LaidIn tokens seen → ∃ more, Read c d more ∧ e.LaidIn tokens (seen ++ more)) ?_ h
  intro again again_ok callee c e d h seen ahead laid
  obtain ⟨goes_on, c₁, first, h⟩ := bind_ok h
  cases goes_on with
  | false =>
    obtain ⟨rfl, rfl⟩ := pure_ok h
    obtain ⟨rfl, -⟩ := accept_false_ok first
    exact ⟨[], .nil, by simpa using laid⟩
  | true =>
    obtain ⟨args, c₂, second, h⟩ := bind_ok h
    obtain ⟨closing, c₃, third, h⟩ := bind_ok h
    obtain ⟨opening, -, read₁⟩ := accept_read first
    have inside_ahead := read₁.ahead ahead.back
    obtain ⟨inside, read₂, args_laid, args_neat⟩ := lays_args inner _ _ _ _ second inside_ahead
    obtain ⟨-, read₃⟩ := expect_read third
    have read := read₁.trans (read₂.trans read₃)
    have later := read.after ahead
    have behind := args_laid.concat_token later.front.back.back
    have all := laid.span.append (behind.mono (List.subset_append_right [opening] _)) later.front
    have made : (Expr.call callee args (callee.span.cover closing.span)).LaidIn tokens
        (seen ++ ([opening] ++ (inside ++ [closing]))) := by
      refine ⟨all.cover, Node.throughout_of ⟨?_, nofun⟩ ?_⟩
      · exact all.nests_cover.sublist (List.sublist_append_left (callee.span :: args.map Expr.span) _)
      · intro part child
        cases child with
        | callee => exact laid.neat
        | arg member => exact args_neat _ member
    obtain ⟨more, read₄, laid'⟩ := again_ok _ _ _ _ h _ later made
    exact ⟨_, read.trans read₄, by rwa [← List.append_assoc]⟩

theorem lays_call (inner : LaysExpr tokens f) : LaysExpr tokens (call f) :=
  (lays_member inner).bind (extends_calls inner)

theorem lays_unary (inner : LaysExpr tokens f) : LaysExpr tokens (unary f) := by
  intro c e d h
  refine fix_ok (motive := fun _ c e d => Ahead tokens c.rest →
    ∃ own, Read c d own ∧ e.LaidIn tokens own) ?_ h
  intro again again_ok _ c e d h ahead
  obtain ⟨taken, c₁, first, h₁⟩ := bind_ok h
  cases taken with
  | none =>
    obtain ⟨rfl, -⟩ := take_none_ok first
    exact lays_call inner _ _ _ h₁ ahead
  | some operator =>
    obtain ⟨-, read₁⟩ := take_read first
    obtain ⟨_, c₂, second, h₂⟩ := bind_ok h₁
    obtain rfl := requireOperand_ok second
    obtain ⟨operand, c₃, third, h₃⟩ := bind_ok h₂
    obtain ⟨rfl, rfl⟩ := pure_ok h₃
    obtain ⟨own, read₂, laid⟩ := again_ok _ _ _ _ third (read₁.ahead ahead)
    have read := read₁.trans read₂
    have both : Laid ([operator] ++ own) ([operator.span] ++ [operand.span]) :=
      laid.span.cons_token (read.own_ordered ahead)
    refine ⟨_, read, both.cover, Node.throughout_of ⟨?_, nofun⟩ ?_⟩
    · exact both.nests_cover.sublist (List.sublist_cons_self operator.span [operand.span])
    · rintro _ ⟨⟩
      exact laid.neat

theorem extends_operations {operand : Parse Expr} (operands : LaysExpr tokens operand) (level : Level) :
    Extends tokens (operations operand level) := by
  intro left c e d h
  refine fix_ok (motive := fun left c e d => ∀ seen, Ahead tokens (seen ++ c.rest) →
    left.LaidIn tokens seen → ∃ more, Read c d more ∧ e.LaidIn tokens (seen ++ more)) ?_ h
  intro again again_ok left c e d h seen ahead laid
  obtain ⟨taken, c₁, first, h₁⟩ := bind_ok h
  cases taken with
  | none =>
    obtain ⟨rfl, rfl⟩ := pure_ok h₁
    obtain ⟨rfl, -⟩ := take_none_ok first
    exact ⟨[], .nil, by simpa using laid⟩
  | some token =>
    obtain ⟨-, read₁⟩ := take_read first
    cases found : level.operator? token.text with
    | none =>
      simp only [found] at h₁
      exact absurd h₁ fail_ne_ok
    | some op =>
      simp only [found] at h₁
      obtain ⟨_, c₂, second, h₂⟩ := bind_ok h₁
      obtain rfl := requireOperand_ok second
      obtain ⟨right, c₃, third, h₃⟩ := bind_ok h₂
      obtain ⟨inside, read₂, right_laid⟩ :=
        operands _ _ _ third (read₁.ahead ahead.back)
      have read := read₁.trans read₂
      have later := read.after ahead
      have behind := right_laid.span.mono (List.subset_append_right [token] inside)
      have both := laid.span.append behind later.front
      have made : (Expr.binary op left right (left.span.cover right.span)).LaidIn tokens
          (seen ++ ([token] ++ inside)) := by
        refine ⟨both.cover, Node.throughout_of ⟨both.nests_cover, nofun⟩ ?_⟩
        intro part child
        cases child with
        | left => exact laid.neat
        | right => exact right_laid.neat
      obtain ⟨more, read₃, laid'⟩ := again_ok _ _ _ _ h₃ _ later made
      exact ⟨_, read.trans read₃, by rwa [← List.append_assoc]⟩

theorem lays_chain {operand : Parse Expr} (level : Level) (operands : LaysExpr tokens operand) :
    LaysExpr tokens (chain operand level) :=
  operands.bind (extends_operations operands level)

theorem lays_logical (inner : LaysExpr tokens f) : LaysExpr tokens (logical f) :=
  lays_chain .logical <| lays_chain .comparison <| lays_chain .additive <|
    lays_chain .multiplicative <| lays_unary inner

theorem lays_property (inner : LaysExpr tokens f) :
    Lays tokens (property f) fun p own => Laid own [p.span] ∧ p.span.Nests [p.value.span] ∧
      (Node.expr p.value).Throughout (Node.Neat tokens) := by
  intro c p d h ahead
  obtain ⟨key, c₁, first, h⟩ := bind_ok h
  obtain ⟨colon, c₂, second, h⟩ := bind_ok h
  obtain ⟨value, c₃, third, h⟩ := bind_ok h
  obtain ⟨rfl, rfl⟩ := pure_ok h
  obtain ⟨-, read₁⟩ := expect_read first
  obtain ⟨-, read₂⟩ := expect_read second
  have after := read₂.ahead (read₁.ahead ahead)
  obtain ⟨own, read₃, laid⟩ := inner _ _ _ third after
  have read := read₁.trans (read₂.trans read₃)
  have behind := laid.span.mono (List.subset_append_right [colon] own)
  have both : Laid ([key] ++ ([colon] ++ own)) ([key.span] ++ [value.span]) :=
    behind.cons_token (read.own_ordered ahead)
  refine ⟨_, read, both.cover, ?_, laid.neat⟩
  exact both.nests_cover.sublist (List.sublist_cons_self key.span [value.span])

theorem lays_objectOrLogical (inner : LaysExpr tokens f) : LaysExpr tokens (objectOrLogical f) := by
  intro c e d h ahead
  obtain ⟨taken, c₁, first, h₁⟩ := bind_ok h
  cases taken with
  | none =>
    obtain ⟨rfl, -⟩ := take_none_ok first
    exact lays_logical inner _ _ _ h₁ ahead
  | some opening =>
    obtain ⟨-, read₁⟩ := take_read first
    obtain ⟨entries, c₂, second, h₂⟩ := bind_ok h₁
    obtain ⟨closing, c₃, third, h₃⟩ := bind_ok h₂
    obtain ⟨rfl, rfl⟩ := pure_ok h₃
    obtain ⟨inside, read₂, laid, neat⟩ :=
      lays_listUntil (lays_property inner) _ _ _ second (read₁.ahead ahead)
    rw [← List.map_eq_flatMap] at laid
    obtain ⟨-, read₃⟩ := expect_read third
    have read := read₁.trans (read₂.trans read₃)
    have own := read.own_ordered ahead
    have all := (laid.concat_token own.back).cons_token own
    refine ⟨_, read, all.cover, Node.throughout_of ⟨?_, ?_⟩ ?_⟩
    · refine all.nests_cover.sublist ?_
      exact (List.sublist_append_left _ _).trans (List.sublist_cons_self _ _)
    · exact fun p member => (neat p member).1
    · intro part child
      cases child with
      | property member => exact (neat _ member).2

theorem lays_assignment (inner : LaysExpr tokens f) : LaysExpr tokens (assignment f) := by
  intro c e d h ahead
  obtain ⟨target, c₁, first, h₁⟩ := bind_ok h
  obtain ⟨left, read₁, laid⟩ := lays_objectOrLogical inner _ _ _ first ahead
  obtain ⟨taken, c₂, second, h₂⟩ := bind_ok h₁
  cases taken with
  | none =>
    obtain ⟨rfl, rfl⟩ := pure_ok h₂
    obtain ⟨rfl, -⟩ := take_none_ok second
    exact ⟨left, read₁, laid⟩
  | some operator =>
    obtain ⟨-, read₂⟩ := take_read second
    obtain ⟨_, c₃, third, h₃⟩ := bind_ok h₂
    obtain rfl := requireOperand_ok third
    obtain ⟨value, c₄, fourth, h₄⟩ := bind_ok h₃
    obtain ⟨rfl, rfl⟩ := pure_ok h₄
    have after := read₂.ahead (read₁.ahead ahead)
    obtain ⟨right, read₃, value_laid⟩ := inner _ _ _ fourth after
    have read := read₁.trans (read₂.trans read₃)
    have behind := value_laid.span.mono (List.subset_append_right [operator] right)
    have both := laid.span.append behind (read.own_ordered ahead)
    refine ⟨_, read, both.cover, Node.throughout_of ⟨both.nests_cover, nofun⟩ ?_⟩
    intro part child
    cases child with
    | target => exact laid.neat
    | assigned => exact value_laid.neat

end

theorem lays_expression : LaysExpr tokens expression := by
  intro c e d h
  refine fix_ok (motive := fun _ c e d => Ahead tokens c.rest →
    ∃ own, Read c d own ∧ e.LaidIn tokens own) ?_ h
  intro again again_ok _
  exact lays_assignment (again_ok ())

end Parse

end Syntax

end Scriptlet
