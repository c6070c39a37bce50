import Scriptlet.Proofs.Syntax.Grammar
import Scriptlet.Proofs.Syntax.Reading

/-!
# The expressions that are read are derived

A parser is `Sound` for a construct when the tokens that it reads spell the tree that it gives, in
front of the tokens that it leaves. The parsers of expressions are sound if the parser of whole
expressions is, and `fix_ok` closes the circle. A parser that goes on with a tree already read gets
the derivation of that tree too.
-/
namespace Scriptlet

namespace Syntax

namespace Parse

open Grammar (Phrase)
open Token (BeginsWith Lexeme lexemes lexeme_of_kind)

variable {α : Type} {c d : Cursor}

/-- What a parser gives is derived from the tokens that it reads, in front of those that it
leaves. -/
def Sound (p : Parse α) (derives : α → List Lexeme → List Lexeme → Prop) : Prop :=
  ∀ c a d, p c = .ok (a, d) →
    ∃ ls, lexemes c.rest = ls ++ lexemes d.rest ∧ derives a ls (lexemes d.rest)

/-- A parser of expressions that reads a phrase. -/
def SoundFor (phrase : Expr → Phrase) (p : Parse Expr) : Prop :=
  Sound p fun e => (phrase e.shape).Derives

/-! Items with commas between. -/

section
variable {item : Parse α} {one : α → List Lexeme → List Lexeme → Prop}
  {many : List α → List Lexeme → List Lexeme → Prop}

theorem sound_commaSeparated (items : Sound item one)
    (last : ∀ {a ls rest}, one a ls rest → many [a] ls rest)
    (more : ∀ {a next as comma left right rest}, one a left (⟨.comma, comma⟩ :: (right ++ rest)) →
      many (next :: as) right rest → many (a :: next :: as) (left ++ ⟨.comma, comma⟩ :: right) rest) :
    Sound (commaSeparated item) fun as ls rest => many as ls rest ∧ as ≠ [] := by
  intro c as d h
  refine fix_ok (motive := fun _ c as d => ∃ ls, lexemes c.rest = ls ++ lexemes d.rest ∧
    many as ls (lexemes d.rest) ∧ as ≠ []) ?_ h
  intro again again_ok _ c as d h
  obtain ⟨a, c₁, first, h⟩ := bind_ok h
  obtain ⟨left, spelled, of_item⟩ := items _ _ _ first
  obtain ⟨goes_on, c₂, second, h⟩ := bind_ok h
  cases goes_on with
  | false =>
    obtain ⟨rfl, rfl⟩ := pure_ok h
    obtain ⟨rfl, -⟩ := accept_false_ok second
    exact ⟨left, spelled, last of_item, List.cons_ne_nil _ _⟩
  | true =>
    obtain ⟨others, c₃, third, h⟩ := bind_ok h
    obtain ⟨rfl, rfl⟩ := pure_ok h
    obtain ⟨comma, next⟩ := accept_true_ok second
    obtain ⟨right, others_spelled, of_others, some_⟩ := again_ok _ _ _ _ third
    obtain ⟨b, bs, rfl⟩ := List.exists_cons_of_ne_nil some_
    rw [others_spelled] at next
    rw [next] at spelled of_item
    refine ⟨left ++ ⟨.comma, comma⟩ :: right, by simp [spelled], ?_, List.cons_ne_nil _ _⟩
    exact more of_item of_others

theorem sound_listUntil {closing : Token.Kind} (items : Sound item one)
    (none_ : ∀ {rest}, many [] [] rest) (last : ∀ {a ls rest}, one a ls rest → many [a] ls rest)
    (more : ∀ {a next as comma left right rest}, one a left (⟨.comma, comma⟩ :: (right ++ rest)) →
      many (next :: as) right rest → many (a :: next :: as) (left ++ ⟨.comma, comma⟩ :: right) rest) :
    Sound (listUntil closing item) many := by
  intro c as d h
  obtain ⟨empty, c₁, first, h⟩ := bind_ok h
  obtain rfl := nextIs_ok first
  cases empty with
  | true =>
    obtain ⟨rfl, rfl⟩ := pure_ok h
    exact ⟨[], rfl, none_⟩
  | false =>
    obtain ⟨ls, spelled, derives, -⟩ := sound_commaSeparated items last more _ _ _ h
    exact ⟨ls, spelled, derives⟩

end

/-! Expressions, given a sound parser of whole expressions. -/

section
variable {f : Parse Expr}

theorem group_ok (inner : SoundFor .expr f) {opening : Token} {e : Expr}
    (h : group f opening c = .ok (e, d)) :
    ∃ ls closing, lexemes c.rest = ls ++ ⟨.closeParen, closing⟩ :: lexemes d.rest ∧
      Phrase.Derives (.expr e.shape) ls (⟨.closeParen, closing⟩ :: lexemes d.rest) := by
  obtain ⟨empty, c', first, h⟩ := bind_ok h
  obtain rfl := nextIs_ok first
  have read : (f >>= fun e => expect .groupEnd >>= fun _ => pure e) c' = .ok (e, d) := by
    cases empty with
    | true =>
      obtain ⟨_, _, -, h⟩ := bind_ok h
      obtain ⟨_, _, failed, -⟩ := bind_ok h
      exact absurd failed fail_ne_ok
    | false => exact h
  obtain ⟨e', c₁, second, h⟩ := bind_ok read
  obtain ⟨closing, c₂, third, h⟩ := bind_ok h
  obtain ⟨rfl, rfl⟩ := pure_ok h
  obtain ⟨ls, spelled, derives⟩ := inner _ _ _ second
  rw [expect_ok third] at spelled derives
  exact ⟨ls, closing.text, spelled, derives⟩

theorem sound_primary (inner : SoundFor .expr f) : SoundFor .primary (primary f) := by
  intro c e d h
  obtain ⟨taken, c₁, first, h⟩ := bind_ok h
  cases taken with
  | none =>
    obtain ⟨_, _, _, h⟩ := bind_ok h
    exact absurd h fail_ne_ok
  | some token =>
    obtain ⟨-, next⟩ := take_ok first
    rw [next, Token.lexemes_cons]
    cases is_kind : token.kind with
    | name =>
      simp only [is_kind] at h
      obtain ⟨rfl, rfl⟩ := pure_ok h
      exact ⟨[_], rfl, lexeme_of_kind is_kind ▸ .name⟩
    | number =>
      simp only [is_kind] at h
      cases denotes : Number.ofNumeral? token.text.toList with
      | none =>
        simp only [denotes] at h
        exact absurd h fail_ne_ok
      | some value =>
        simp only [denotes] at h
        obtain ⟨rfl, rfl⟩ := pure_ok h
        exact ⟨[_], rfl, lexeme_of_kind is_kind ▸ .number denotes⟩
    | text =>
      simp only [is_kind] at h
      obtain ⟨rfl, rfl⟩ := pure_ok h
      exact ⟨[_], rfl, lexeme_of_kind is_kind ▸ .text⟩
    | openParen =>
      simp only [is_kind] at h
      obtain ⟨ls, closing, spelled, derives⟩ := group_ok inner h
      refine ⟨token.lexeme :: (ls ++ [⟨.closeParen, closing⟩]), by simp [spelled], ?_⟩
      exact lexeme_of_kind is_kind ▸ .group derives
    | _ =>
      simp only [is_kind] at h
      exact absurd h fail_ne_ok

theorem members_ok {object e : Expr} (h : members object c = .ok (e, d)) {ls : List Lexeme}
    (read : Phrase.Derives (.member object.shape) ls (lexemes c.rest)) :
    ∃ more, lexemes c.rest = more ++ lexemes d.rest ∧
      Phrase.Derives (.member e.shape) (ls ++ more) (lexemes d.rest) := by
  refine fix_ok (motive := fun object c e d => ∀ ls, Phrase.Derives (.member object.shape) ls
    (lexemes c.rest) → ∃ more, lexemes c.rest = more ++ lexemes d.rest ∧
      Phrase.Derives (.member e.shape) (ls ++ more) (lexemes d.rest)) ?_ h ls read
  intro again again_ok object c e d h ls read
  obtain ⟨more, c₁, first, h⟩ := bind_ok h
  cases more with
  | false =>
    obtain ⟨rfl, rfl⟩ := pure_ok h
    obtain ⟨rfl, -⟩ := accept_false_ok first
    exact ⟨[], rfl, by simpa using read⟩
  | true =>
    obtain ⟨property, c₂, second, h⟩ := bind_ok h
    obtain ⟨period, next⟩ := accept_true_ok first
    rw [expect_ok second] at next
    obtain ⟨more, spelled, derives⟩ := again_ok _ _ _ _ h _ (.member (next ▸ read))
    refine ⟨⟨.period, period⟩ :: ⟨.name, property.text⟩ :: more, by simp [next, spelled, Expected.kind], ?_⟩
    simpa using derives

theorem sound_member (inner : SoundFor .expr f) : SoundFor .member (member f) := by
  intro c e d h
  obtain ⟨object, c₁, first, h⟩ := bind_ok h
  obtain ⟨ls, spelled, read⟩ := sound_primary inner _ _ _ first
  obtain ⟨more, more_spelled, derives⟩ := members_ok h (.root read)
  exact ⟨ls ++ more, by rw [spelled, more_spelled, List.append_assoc], derives⟩

theorem sound_args (inner : SoundFor .expr f) (closing : Token.Kind) :
    Sound (listUntil closing f) fun args => Phrase.Derives (.args (exprShapes args)) :=
  sound_listUntil inner .noArgs .lastArg .moreArgs

theorem calls_ok (inner : SoundFor .expr f) {callee e : Expr} (h : calls f callee c = .ok (e, d))
    {ls : List Lexeme} (read : Phrase.Derives (.call callee.shape) ls (lexemes c.rest)) :
    ∃ more, lexemes c.rest = more ++ lexemes d.rest ∧
      Phrase.Derives (.call e.shape) (ls ++ more) (lexemes d.rest) ∧
      ¬ BeginsWith .openParen (lexemes d.rest) := by
  refine fix_ok (motive := fun callee c e d => ∀ ls, Phrase.Derives (.call callee.shape) ls
    (lexemes c.rest) → ∃ more, lexemes c.rest = more ++ lexemes d.rest ∧
      Phrase.Derives (.call e.shape) (ls ++ more) (lexemes d.rest) ∧
      ¬ BeginsWith .openParen (lexemes d.rest)) ?_ h ls read
  intro again again_ok callee c e d h ls read
  obtain ⟨goes_on, c₁, first, h⟩ := bind_ok h
  cases goes_on with
  | false =>
    obtain ⟨rfl, rfl⟩ := pure_ok h
    obtain ⟨rfl, ends⟩ := accept_false_ok first
    exact ⟨[], rfl, by simpa using read, ends⟩
  | true =>
    obtain ⟨args, c₂, second, h⟩ := bind_ok h
    obtain ⟨closing, c₃, third, h⟩ := bind_ok h
    obtain ⟨opening, next⟩ := accept_true_ok first
    obtain ⟨inside, spelled, of_args⟩ := sound_args inner _ _ _ _ second
    rw [expect_ok third] at spelled of_args
    rw [spelled] at next
    obtain ⟨more, more_spelled, derives, ends⟩ := again_ok _ _ _ _ h _ (.call (next ▸ read) of_args)
    refine ⟨⟨.openParen, opening⟩ :: (inside ++ ⟨.closeParen, closing.text⟩ :: more), ?_, ?_, ends⟩
    · simp [next, more_spelled, Expected.kind]
    · simpa using derives

theorem sound_call (inner : SoundFor .expr f) : SoundFor .unary (call f) := by
  intro c e d h
  obtain ⟨callee, c₁, first, h⟩ := bind_ok h
  obtain ⟨ls, spelled, read⟩ := sound_member inner _ _ _ first
  obtain ⟨more, more_spelled, derives, ends⟩ := calls_ok inner h (.callee read)
  exact ⟨ls ++ more, by rw [spelled, more_spelled, List.append_assoc], .complete derives ends⟩

theorem requireOperand_ok {operator : Token} {u : Unit} (h : requireOperand operator c = .ok (u, d)) :
    d = c := by
  obtain ⟨next, c₁, first, h⟩ := bind_ok h
  obtain ⟨rfl, rfl⟩ := peek_ok first
  split at h
  · exact absurd h fail_ne_ok
  · exact (pure_ok h).2

theorem sound_unary (inner : SoundFor .expr f) : SoundFor .unary (unary f) := by
  intro c e d h
  refine fix_ok (motive := fun _ c e d => ∃ ls, lexemes c.rest = ls ++ lexemes d.rest ∧
    Phrase.Derives (.unary e.shape) ls (lexemes d.rest)) ?_ h
  intro again again_ok _ c e d h
  obtain ⟨taken, c₁, first, h₁⟩ := bind_ok h
  cases taken with
  | none =>
    obtain ⟨rfl, -⟩ := take_none_ok first
    exact sound_call inner _ _ _ h₁
  | some operator =>
    obtain ⟨negates, next⟩ := take_ok first
    obtain ⟨_, c₂, second, h₂⟩ := bind_ok h₁
    obtain rfl := requireOperand_ok second
    obtain ⟨operand, c₃, third, h₃⟩ := bind_ok h₂
    obtain ⟨rfl, rfl⟩ := pure_ok h₃
    obtain ⟨ls, spelled, derives⟩ := again_ok _ _ _ _ third
    refine ⟨operator.lexeme :: ls, by simp [next, spelled], ?_⟩
    exact lexeme_of_kind (of_decide_eq_true negates) ▸ .not derives

theorem operations_ok {operand : Parse Expr} {level : Level}
    (operands : SoundFor (Grammar.operand level) operand) {left e : Expr}
    (h : operations operand level left c = .ok (e, d)) {ls : List Lexeme}
    (read : Phrase.Derives (.chain level left.shape) ls (lexemes c.rest)) :
    ∃ more, lexemes c.rest = more ++ lexemes d.rest ∧
      Phrase.Derives (.chain level e.shape) (ls ++ more) (lexemes d.rest) := by
  refine fix_ok (motive := fun left c e d => ∀ ls, Phrase.Derives (.chain level left.shape) ls
    (lexemes c.rest) → ∃ more, lexemes c.rest = more ++ lexemes d.rest ∧
      Phrase.Derives (.chain level e.shape) (ls ++ more) (lexemes d.rest)) ?_ h ls read
  intro again again_ok left c e d h ls read
  obtain ⟨taken, c₁, first, h₁⟩ := bind_ok h
  cases taken with
  | none =>
    obtain ⟨rfl, rfl⟩ := pure_ok h₁
    obtain ⟨rfl, -⟩ := take_none_ok first
    exact ⟨[], rfl, by simpa using read⟩
  | some token =>
    obtain ⟨continued, next⟩ := take_ok first
    cases found : level.operator? token.text with
    | none =>
      simp only [found] at h₁
      exact absurd h₁ fail_ne_ok
    | some op =>
      simp only [found] at h₁
      obtain ⟨at_level, spells⟩ := Level.operator_iff.mp ⟨continued, found⟩
      obtain ⟨_, c₂, second, h₂⟩ := bind_ok h₁
      obtain rfl := requireOperand_ok second
      obtain ⟨right, c₃, third, h₃⟩ := bind_ok h₂
      obtain ⟨inside, spelled, of_right⟩ := operands _ _ _ third
      have all_spelled : lexemes c.rest = op.lexeme :: (inside ++ lexemes c₃.rest) := by
        rw [next, Token.lexemes_cons, spells, spelled]
      rw [all_spelled] at read
      obtain ⟨more, more_spelled, derives⟩ :=
        again_ok _ _ _ _ h₃ _ (.binary at_level read of_right)
      refine ⟨op.lexeme :: (inside ++ more), ?_, ?_⟩
      · simp [all_spelled, more_spelled]
      · simpa using derives

theorem sound_chain {operand : Parse Expr} (level : Level)
    (operands : SoundFor (Grammar.operand level) operand) :
    SoundFor (.chain level) (chain operand level) := by
  intro c e d h
  obtain ⟨left, c₁, first, h⟩ := bind_ok h
  obtain ⟨ls, spelled, read⟩ := operands _ _ _ first
  obtain ⟨more, more_spelled, derives⟩ := operations_ok operands h (.operand read)
  exact ⟨ls ++ more, by rw [spelled, more_spelled, List.append_assoc], derives⟩

/-- The four levels of chains, each on top of the next tighter one. -/
theorem sound_logical (inner : SoundFor .expr f) : SoundFor (.chain .logical) (logical f) :=
  sound_chain .logical <| sound_chain .comparison <| sound_chain .additive <|
    sound_chain .multiplicative <| sound_unary inner

/-- What one property derives is the list of that property alone. -/
theorem sound_property (inner : SoundFor .expr f) :
    Sound (property f) fun entry ls rest => ∃ key value colon right,
      entry.shape = .mk key value .unplaced ∧ ls = ⟨.name, key⟩ :: ⟨.colon, colon⟩ :: right ∧
      Phrase.Derives (.expr value) right rest := by
  intro c entry d h
  obtain ⟨key, c₁, first, h⟩ := bind_ok h
  obtain ⟨colon, c₂, second, h⟩ := bind_ok h
  obtain ⟨value, c₃, third, h⟩ := bind_ok h
  obtain ⟨rfl, rfl⟩ := pure_ok h
  obtain ⟨right, spelled, derives⟩ := inner _ _ _ third
  have all_spelled := expect_ok first
  rw [expect_ok second, spelled] at all_spelled
  exact ⟨_, all_spelled, key.text, value.shape, colon.text, right, rfl, rfl, derives⟩

theorem sound_properties (inner : SoundFor .expr f) (closing : Token.Kind) :
    Sound (listUntil closing (property f)) fun entries =>
      Phrase.Derives (.properties (propertyShapes entries)) := by
  apply sound_listUntil (sound_property inner) .noProperties
  · rintro entry _ rest ⟨key, value, colon, right, shape, rfl, derives⟩
    rw [propertyShapes, shape]
    exact .lastProperty derives
  · rintro entry next entries comma _ right rest ⟨key, value, colon, left, shape, rfl, derives⟩ others
    rw [propertyShapes, shape]
    exact .moreProperties derives others

theorem sound_objectOrLogical (inner : SoundFor .expr f) :
    SoundFor .objectLevel (objectOrLogical f) := by
  intro c e d h
  obtain ⟨taken, c₁, first, h₁⟩ := bind_ok h
  cases taken with
  | none =>
    obtain ⟨rfl, -⟩ := take_none_ok first
    obtain ⟨ls, spelled, derives⟩ := sound_logical inner _ _ _ h₁
    exact ⟨ls, spelled, .logical derives⟩
  | some opening =>
    obtain ⟨opens, next⟩ := take_ok first
    obtain ⟨entries, c₂, second, h₂⟩ := bind_ok h₁
    obtain ⟨closing, c₃, third, h₃⟩ := bind_ok h₂
    obtain ⟨rfl, rfl⟩ := pure_ok h₃
    obtain ⟨ls, spelled, derives⟩ := sound_properties inner _ _ _ _ second
    rw [expect_ok third] at spelled derives
    refine ⟨opening.lexeme :: (ls ++ [⟨.closeBrace, closing.text⟩]), ?_, ?_⟩
    · simp [next, spelled, Expected.kind]
    · exact lexeme_of_kind (of_decide_eq_true opens) ▸ .object derives

theorem sound_assignment (inner : SoundFor .expr f) : SoundFor .expr (assignment f) := by
  intro c e d h
  obtain ⟨target, c₁, first, h₁⟩ := bind_ok h
  obtain ⟨left, spelled, of_target⟩ := sound_objectOrLogical inner _ _ _ first
  obtain ⟨taken, c₂, second, h₂⟩ := bind_ok h₁
  cases taken with
  | none =>
    obtain ⟨rfl, rfl⟩ := pure_ok h₂
    obtain ⟨rfl, -⟩ := take_none_ok second
    exact ⟨left, spelled, .value of_target⟩
  | some operator =>
    obtain ⟨assigns, next⟩ := take_ok second
    obtain ⟨_, c₃, third, h₃⟩ := bind_ok h₂
    obtain rfl := requireOperand_ok third
    obtain ⟨value, c₄, fourth, h₄⟩ := bind_ok h₃
    obtain ⟨rfl, rfl⟩ := pure_ok h₄
    obtain ⟨right, value_spelled, of_value⟩ := inner _ _ _ fourth
    rw [next, Token.lexemes_cons, lexeme_of_kind (of_decide_eq_true assigns), value_spelled]
      at spelled of_target
    refine ⟨left ++ ⟨.assign, operator.text⟩ :: right, by simp [spelled], ?_⟩
    exact .assign of_target of_value

end

theorem sound_expression : SoundFor .expr expression := by
  intro c e d h
  refine fix_ok (motive := fun _ c e d => ∃ ls, lexemes c.rest = ls ++ lexemes d.rest ∧
    Phrase.Derives (.expr e.shape) ls (lexemes d.rest)) ?_ h
  intro again again_ok _
  exact sound_assignment (again_ok ())

end Parse

end Syntax

end Scriptlet
