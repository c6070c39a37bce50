import Scriptlet.Proofs.Syntax.Recursion
import Scriptlet.Proofs.Syntax.Reading

/-!
# The expressions that are derived are read

The parser decides by the next token alone. So a derivation is followed by the parser where two
things hold: the lexemes begin with a token that sends the parser the right way (`Begins`), and what
comes behind them does not go on with the expression (`Loose`). The first is a property of every
derivation. The second is asked of what follows, the more of it the further out the phrase is. A
derivation of a chain, of calls or of members is followed up to the loop that would read more of it.
-/
namespace Scriptlet

open Syntax (Level Parse)
open Token (BeginsWith Lexeme lexemes)

namespace Grammar

/-- How far out in a program tokens of a kind may come first: before operands (0), before operators
(1), before object literals (2), before statements (3), behind them (4) or nowhere (5). -/
def opening : Token.Kind → Nat
  | .name | .number | .text | .openParen => 0
  | .negation => 1
  | .openBrace => 2
  | .letWord | .constWord | .fnWord | .ifWord => 3
  | .closeBrace => 4
  | _ => 5

/-- The lexemes are not empty, and the first one opens what is at most so far out. -/
def Begins (depth : Nat) (ls : List Lexeme) : Prop := ∃ l tail, ls = l :: tail ∧ opening l.kind ≤ depth

/-- How loosely a lexeme ties what follows it to an expression before it. The loosest ones end the
expression. Opening parentheses are left out: whether one may follow is said by the grammar. -/
def looseness (l : Lexeme) : Nat :=
  match l.kind with
  | .period => 0
  | .arithmetic => if l.text = "*" ∨ l.text = "/" ∨ l.text = "%" then 1 else 2
  | .comparison => 3
  | .logical => 4
  | .assign => 5
  | _ => 6

/-- What follows is not tied more tightly than that. -/
def Loose (n : Nat) (rest : List Lexeme) : Prop := ∀ l ∈ rest.head?, n ≤ looseness l

/-- How loosely the operators of a level tie their operands. -/
def rank : Level → Nat
  | .multiplicative => 1
  | .additive => 2
  | .comparison => 3
  | .logical => 4

theorem Begins.mono {m n : Nat} {ls : List Lexeme} (h : Begins m ls) (le : m ≤ n) : Begins n ls := by
  obtain ⟨l, tail, rfl, opens⟩ := h
  exact ⟨l, tail, rfl, Nat.le_trans opens le⟩

theorem Begins.append {n : Nat} {ls : List Lexeme} (h : Begins n ls) (more : List Lexeme) :
    Begins n (ls ++ more) := by
  obtain ⟨l, tail, rfl, opens⟩ := h
  exact ⟨l, tail ++ more, rfl, opens⟩

theorem Begins.ne_nil {n : Nat} {ls : List Lexeme} (h : Begins n ls) : ls ≠ [] := by
  obtain ⟨l, tail, rfl, -⟩ := h
  exact List.cons_ne_nil l tail

theorem Begins.not_beginsWith {n : Nat} {ls : List Lexeme} {kind : Token.Kind} (h : Begins n ls)
    (out : n < opening kind) : ¬ BeginsWith kind ls := by
  obtain ⟨l, tail, rfl, opens⟩ := h
  intro begins
  obtain rfl : l.kind = kind := by simpa [BeginsWith] using begins
  omega

theorem Loose.mono {m n : Nat} {rest : List Lexeme} (h : Loose n rest) (le : m ≤ n) : Loose m rest :=
  fun l head => Nat.le_trans le (h l head)

theorem loose_cons {n : Nat} {l : Lexeme} {rest : List Lexeme} (h : n ≤ looseness l) :
    Loose n (l :: rest) := by
  intro l' head
  obtain rfl : l = l' := by simpa using head
  exact h

theorem Loose.not_beginsWith {n : Nat} {rest : List Lexeme} {kind : Token.Kind} (h : Loose n rest)
    (tight : ∀ text, looseness ⟨kind, text⟩ < n) : ¬ BeginsWith kind rest := by
  cases rest with
  | nil => simp [BeginsWith]
  | cons l tail =>
    intro begins
    obtain ⟨kind, text⟩ := l
    obtain rfl : kind = _ := by simpa [BeginsWith] using begins
    exact absurd (h _ rfl) (Nat.not_le_of_lt (tight text))

theorem looseness_operator (op : Operator) : looseness op.lexeme = rank op.level := by
  obtain x | x | x := op <;> cases x <;> rfl

/-- A level goes on with the tokens of its own looseness only. -/
theorem continuedBy_of_loose {level : Level} {token : Token} (h : rank level < looseness token.lexeme) :
    level.continuedBy token = false := by
  obtain ⟨kind, text, span⟩ := token
  cases continued : level.continuedBy ⟨kind, text, span⟩ with
  | false => rfl
  | true =>
    cases level with
    | logical | comparison =>
      obtain rfl := of_decide_eq_true continued
      exact absurd h (Nat.lt_irrefl _)
    | additive =>
      simp only [Level.continuedBy, Bool.and_eq_true, Bool.or_eq_true, decide_eq_true_eq] at continued
      obtain ⟨rfl, rfl | rfl⟩ := continued <;> exact absurd h (Nat.lt_irrefl _)
    | multiplicative =>
      simp only [Level.continuedBy, Bool.and_eq_true, Bool.or_eq_true, decide_eq_true_eq] at continued
      obtain ⟨rfl, (rfl | rfl) | rfl⟩ := continued <;> exact absurd h (Nat.lt_irrefl _)

/-- How far out a phrase is, by what may come first in it. -/
def first : Phrase → Nat
  | .primary _ | .member _ | .call _ | .properties _ => 0
  | .unary _ | .chain _ _ => 1
  | .objectLevel _ | .expr _ | .args _ => 2

/-- The two phrases without lexemes. -/
def isEmpty : Phrase → Bool
  | .args [] | .properties [] => true
  | _ => false

theorem first_operand (level : Level) (e : Expr) : first (operand level e) = 1 := by
  cases level <;> rfl

theorem isEmpty_operand (level : Level) (e : Expr) : isEmpty (operand level e) = false := by
  cases level <;> rfl

theorem begins_of_derives {phrase : Phrase} {ls rest : List Lexeme} (h : phrase.Derives ls rest)
    (full : isEmpty phrase = false) : Begins (first phrase) ls := by
  induction h with
  | value _ ih => exact ih rfl
  | assign _ _ ih _ => exact (ih rfl).append _
  | logical _ ih => exact (ih rfl).mono (Nat.le_succ 1)
  | object => exact ⟨_, _, rfl, Nat.le_refl _⟩
  | @operand level e _ _ _ ih =>
    have begins := ih (isEmpty_operand level e)
    rwa [first_operand] at begins
  | binary _ _ _ ih _ => exact (ih rfl).append _
  | not => exact ⟨_, _, rfl, Nat.le_refl _⟩
  | complete _ _ ih => exact (ih rfl).mono (Nat.le_succ 0)
  | callee _ ih => exact ih rfl
  | call _ _ ih _ => exact (ih rfl).append _
  | root _ ih => exact ih rfl
  | member _ ih => exact (ih rfl).append _
  | name => exact ⟨_, _, rfl, Nat.le_refl _⟩
  | number => exact ⟨_, _, rfl, Nat.le_refl _⟩
  | text => exact ⟨_, _, rfl, Nat.le_refl _⟩
  | group => exact ⟨_, _, rfl, Nat.le_refl _⟩
  | noArgs => cases full
  | lastArg _ ih => exact ih rfl
  | moreArgs _ _ ih _ => exact (ih rfl).append _
  | noProperties => cases full
  | lastProperty => exact ⟨_, _, rfl, Nat.le_refl _⟩
  | moreProperties => exact ⟨_, _, rfl, Nat.le_refl _⟩

end Grammar

namespace Syntax

namespace Parse

open Grammar

/-! Items with commas between. -/

section
variable {α : Type} {item : Parse α} {one : α → Prop} {many : List α → Prop}
  {ls left right rest : List Lexeme}

theorem reads_last (steady : Steady 0 item) (items : Reads item one ls rest)
    (ends : ¬ BeginsWith .comma rest) :
    Reads (commaSeparated item) (fun as => ∃ a, as = [a] ∧ one a) ls rest := by
  rw [commaSeparated_eq steady]
  refine items.bind_last fun a is_one => ?_
  exact reaches_accept_not ends (reads_pure ⟨a, rfl, is_one⟩)

theorem reads_more (steady : Steady 0 item) {comma : String}
    (items : Reads item one left (⟨.comma, comma⟩ :: (right ++ rest)))
    (others : Reads (commaSeparated item) many right rest) :
    Reads (commaSeparated item) (fun as => ∃ a bs, as = a :: bs ∧ one a ∧ many bs)
      (left ++ ⟨.comma, comma⟩ :: right) rest := by
  rw [commaSeparated_eq steady]
  refine items.bind fun a is_one => ?_
  refine reaches_accept ?_
  exact others.bind_last fun bs are_many => reads_pure ⟨a, bs, rfl, is_one, are_many⟩

theorem reads_listUntil {closing : Token.Kind} {text : String}
    (full : ls ≠ [] → Reads (commaSeparated item) many ls (⟨closing, text⟩ :: rest))
    (empty : ls = [] → many []) (begins : ¬ BeginsWith closing ls) :
    Reads (listUntil closing item) many ls (⟨closing, text⟩ :: rest) := by
  cases ls with
  | nil => exact reaches_nextIs rfl (reads_pure (empty rfl))
  | cons l tail => exact reaches_nextIs_not begins (full (List.cons_ne_nil l tail))

end

/-! The loops go on while the next token belongs to them, and end where it does not. -/

section
variable {a e : Expr} {rest : List Lexeme}

theorem members_end (loose : Loose 1 rest) (made : a.shape = e) :
    Reads (members a) (·.shape = e) [] rest := by
  rw [members_eq]
  exact reaches_accept_not (loose.not_beginsWith fun _ => Nat.zero_lt_one) (reads_pure made)

theorem calls_end (ends : ¬ BeginsWith .openParen rest) (made : a.shape = e) :
    Reads (calls expression a) (·.shape = e) [] rest := by
  rw [calls_eq]
  exact reaches_accept_not ends (reads_pure made)

/-- The operands of a level are read by the parser of the next tighter one. -/
def operandParser : Level → Parse Expr
  | .multiplicative => unary expression
  | .additive => chain (unary expression) .multiplicative
  | .comparison => chain (chain (unary expression) .multiplicative) .additive
  | .logical => chain (chain (chain (unary expression) .multiplicative) .additive) .comparison

theorem steady_operandParser (level : Level) : Steady 1 (operandParser level) := by
  intro n
  have unary : Agree 1 n (unary expression) (unary expression) := agree_unary agree_expression_fewer
  cases level with
  | multiplicative => exact unary
  | additive => exact agree_chain unary _
  | comparison => exact agree_chain (agree_chain unary _) _
  | logical => exact agree_chain (agree_chain (agree_chain unary _) _) _

theorem operations_end {level : Level} (loose : Loose (rank level + 1) rest) (made : a.shape = e) :
    Reads (operations (operandParser level) level a) (·.shape = e) [] rest := by
  rw [operations_eq (steady_operandParser level)]
  refine reaches_take_none ?_ (reads_pure made)
  intro token head
  exact continuedBy_of_loose (loose _ head)

end

/-- What the parser does in front of a phrase: it reads it or, where it could read more of it, comes
to the loop that would. -/
def Followed : Phrase → List Lexeme → List Lexeme → Prop
  | .primary e, ls, rest => Reads (primary expression) (·.shape = e) ls rest
  | .member e, ls, rest => Reaches (member expression) members (·.shape = e) ls rest
  | .call e, ls, rest =>
    Loose 1 rest → Reaches (call expression) (calls expression) (·.shape = e) ls rest
  | .unary e, ls, rest => Loose 1 rest → Reads (unary expression) (·.shape = e) ls rest
  | .chain level e, ls, rest =>
    Loose (rank level) rest →
      Reaches (chain (operandParser level) level) (operations (operandParser level) level)
        (·.shape = e) ls rest
  | .objectLevel e, ls, rest =>
    Loose 5 rest → Reads (objectOrLogical expression) (·.shape = e) ls rest
  | .expr e, ls, rest => Loose 6 rest → Reads expression (·.shape = e) ls rest
  | .args es, ls, rest =>
    Loose 6 rest → ¬ BeginsWith .comma rest → ls ≠ [] →
      Reads (commaSeparated expression) (exprShapes · = es) ls rest
  | .properties ps, ls, rest =>
    Loose 6 rest → ¬ BeginsWith .comma rest → ls ≠ [] →
      Reads (commaSeparated (property expression)) (propertyShapes · = ps) ls rest

section
variable {e : Expr} {ls left right rest : List Lexeme}

theorem steady_expression : Steady 0 expression := fun _ => agree_expression.weaken (Nat.le_succ 0)

theorem steady_property : Steady 0 (property expression) := fun n =>
  agree_property (steady_expression n)

theorem reads_operand {level : Level} (h : Followed (Grammar.operand level e) ls rest)
    (loose : Loose (rank level) rest) : Reads (operandParser level) (·.shape = e) ls rest := by
  cases level with
  | multiplicative => exact h loose
  | additive | comparison | logical =>
    exact (h (loose.mono (Nat.le_succ _))).finish fun _ made => operations_end loose made

theorem followed_name {text : String} :
    Followed (.primary (.name text .unplaced)) [⟨.name, text⟩] rest := by
  refine reaches_take (fun _ _ => rfl) fun token spells => ?_
  have is_kind : token.kind = .name := congrArg Lexeme.kind spells
  have is_text : token.text = text := congrArg Lexeme.text spells
  simp only [is_kind]
  exact reads_pure (by rw [is_text]; rfl)

theorem followed_number {text : String} {value : Number}
    (denotes : Number.ofNumeral? text.toList = some value) :
    Followed (.primary (.number value .unplaced)) [⟨.number, text⟩] rest := by
  refine reaches_take (fun _ _ => rfl) fun token spells => ?_
  have is_kind : token.kind = .number := congrArg Lexeme.kind spells
  have is_text : token.text = text := congrArg Lexeme.text spells
  simp only [is_kind, is_text, denotes]
  exact reads_pure rfl

theorem followed_text {text : String} :
    Followed (.primary (.text (unquoted text) .unplaced)) [⟨.text, text⟩] rest := by
  refine reaches_take (fun _ _ => rfl) fun token spells => ?_
  have is_kind : token.kind = .text := congrArg Lexeme.kind spells
  have is_text : token.text = text := congrArg Lexeme.text spells
  simp only [is_kind]
  exact reads_pure (by rw [is_text]; rfl)

theorem followed_group {opening closing : String} (begins : Begins 2 ls)
    (inner : Followed (.expr e) ls (⟨.closeParen, closing⟩ :: rest)) :
    Followed (.primary e) (⟨.openParen, opening⟩ :: (ls ++ [⟨.closeParen, closing⟩])) rest := by
  refine reaches_take (fun _ _ => rfl) fun token spells => ?_
  have is_kind : token.kind = .openParen := congrArg Lexeme.kind spells
  simp only [is_kind]
  have full : ¬ BeginsWith .closeParen (ls ++ [⟨.closeParen, closing⟩] ++ rest) :=
    ((begins.append _).append _).not_beginsWith (by decide)
  refine reaches_nextIs_not full ?_
  change Reads (expression >>= fun e => expect .groupEnd >>= fun _ => pure e) _ _ _
  refine (inner (loose_cons (Nat.le_refl 6))).bind fun inside made => ?_
  exact reaches_expect fun _ _ => reads_pure made

theorem followed_member {object : Expr} {property period : String}
    (inner : Followed (.member object) ls (⟨.period, period⟩ :: ⟨.name, property⟩ :: rest)) :
    Followed (.member (.member object property .unplaced))
      (ls ++ [⟨.period, period⟩, ⟨.name, property⟩]) rest := by
  have object_read : Reaches (member expression) members (·.shape = object) ls
      ([⟨.period, period⟩, ⟨.name, property⟩] ++ rest) := inner
  refine object_read.trans fun a made => ?_
  rw [members_eq]
  refine reaches_accept ?_
  refine reaches_expect fun token spells => ?_
  exact Reaches.done (by simp only [Expr.shape, made, spells])

theorem followed_callee (inner : Followed (.member e) ls rest) : Followed (.call e) ls rest := by
  intro loose
  refine Reads.bind_last ?_ fun _ made => .done made
  exact inner.finish fun _ made => members_end loose made

/-- Items that are closed by a token, or that closing token alone. -/
theorem reads_args {args : List Expr} {closing : String}
    (derives : Phrase.Derives (.args args) ls (⟨.closeParen, closing⟩ :: rest))
    (list : Followed (.args args) ls (⟨.closeParen, closing⟩ :: rest)) :
    Reads (listUntil .closeParen expression) (exprShapes · = args) ls
      (⟨.closeParen, closing⟩ :: rest) := by
  have full := list (loose_cons (Nat.le_refl 6)) (by simp [BeginsWith])
  cases args with
  | nil =>
    cases ls with
    | nil => exact reads_listUntil full (fun _ => rfl) (by simp [BeginsWith])
    | cons l tail => cases derives
  | cons arg others =>
    have begins : Begins 2 ls := begins_of_derives derives rfl
    exact reads_listUntil full (fun empty => absurd empty begins.ne_nil)
      (begins.not_beginsWith (by decide))

theorem followed_call {callee : Expr} {args : List Expr} {opening closing : String}
    (inner : Followed (.call callee) left
      (⟨.openParen, opening⟩ :: (right ++ ⟨.closeParen, closing⟩ :: rest)))
    (derives : Phrase.Derives (.args args) right (⟨.closeParen, closing⟩ :: rest))
    (list : Followed (.args args) right (⟨.closeParen, closing⟩ :: rest)) :
    Followed (.call (.call callee args .unplaced))
      (left ++ ⟨.openParen, opening⟩ :: (right ++ [⟨.closeParen, closing⟩])) rest := by
  intro _
  have callee_read : Reaches (call expression) (calls expression) (·.shape = callee) left
      ((⟨.openParen, opening⟩ :: (right ++ [⟨.closeParen, closing⟩])) ++ rest) := by
    rw [List.cons_append, List.append_assoc]
    exact inner (loose_cons (Nat.succ_le_succ (Nat.zero_le 5)))
  refine callee_read.trans fun a made => ?_
  rw [calls_eq]
  refine reaches_accept ?_
  refine (reads_args derives list).bind fun given args_made => ?_
  refine reaches_expect fun token _ => ?_
  exact Reaches.done (by simp only [Expr.shape, made, args_made])

theorem followed_complete (begins : Begins 0 ls) (inner : Followed (.call e) ls rest)
    (ends : ¬ BeginsWith .openParen rest) : Followed (.unary e) ls rest := by
  intro loose
  rw [unary_eq]
  refine reaches_take_kind_none ((begins.append rest).not_beginsWith (by decide)) ?_
  exact (inner loose).finish fun _ made => calls_end ends made

theorem followed_not {sign : String} (begins : Begins 1 ls) (inner : Followed (.unary e) ls rest) :
    Followed (.unary (.not e .unplaced)) (⟨.negation, sign⟩ :: ls) rest := by
  intro loose
  rw [unary_eq]
  refine reaches_take_kind fun token _ => ?_
  refine reaches_requireOperand begins.ne_nil ?_
  refine (inner loose).bind_last fun a made => reads_pure ?_
  simp only [Expr.shape, made]

theorem followed_operand {level : Level} (inner : Followed (operand level e) ls rest) :
    Followed (.chain level e) ls rest := by
  intro loose
  exact (reads_operand inner loose).bind_last fun a made => .done made

theorem followed_binary {op : Operator} {x y : Expr}
    (inner : Followed (.chain op.level x) left (op.lexeme :: (right ++ rest)))
    (begins : Begins 1 right) (operand : Followed (operand op.level y) right rest) :
    Followed (.chain op.level (.binary op x y .unplaced)) (left ++ op.lexeme :: right) rest := by
  intro loose
  have left_read : Reaches (chain (operandParser op.level) op.level)
      (operations (operandParser op.level) op.level) (·.shape = x) left
      ((op.lexeme :: right) ++ rest) :=
    inner (loose_cons (Nat.le_of_eq (looseness_operator op).symm))
  refine left_read.trans fun a made => ?_
  rw [operations_eq (steady_operandParser op.level)]
  refine reaches_take (fun token spells => (Level.operator_iff.mpr ⟨rfl, spells⟩).1) ?_
  intro token spells
  have found := (Level.operator_iff.mpr ⟨rfl, spells⟩).2
  simp only [found]
  refine reaches_requireOperand begins.ne_nil ?_
  refine (reads_operand operand loose).bind_last fun b made_right => .done ?_
  simp only [Expr.shape, made, made_right]

theorem followed_logical (begins : Begins 1 ls) (inner : Followed (.chain .logical e) ls rest) :
    Followed (.objectLevel e) ls rest := by
  intro loose
  refine reaches_take_kind_none ((begins.append rest).not_beginsWith (by decide)) ?_
  exact (inner (loose.mono (Nat.le_succ 4))).finish fun _ made => operations_end loose made

/-- What an entry of an object literal is read as. -/
theorem reads_property {key colon : String} {value : Expr}
    (inner : Followed (.expr value) ls rest) (loose : Loose 6 rest) :
    Reads (property expression) (·.shape = .mk key value .unplaced)
      (⟨.name, key⟩ :: ⟨.colon, colon⟩ :: ls) rest := by
  refine reaches_expect fun token spells => ?_
  refine reaches_expect fun _ _ => ?_
  refine (inner loose).bind_last fun a made => reads_pure ?_
  simp only [Property.shape, made, spells]

theorem reads_properties {properties : List Property} {closing : String}
    (derives : Phrase.Derives (.properties properties) ls (⟨.closeBrace, closing⟩ :: rest))
    (list : Followed (.properties properties) ls (⟨.closeBrace, closing⟩ :: rest)) :
    Reads (listUntil .closeBrace (property expression)) (propertyShapes · = properties) ls
      (⟨.closeBrace, closing⟩ :: rest) := by
  have full := list (loose_cons (Nat.le_refl 6)) (by simp [BeginsWith])
  cases properties with
  | nil =>
    cases ls with
    | nil => exact reads_listUntil full (fun _ => rfl) (by simp [BeginsWith])
    | cons l tail => cases derives
  | cons entry others =>
    have begins : Begins 0 ls := begins_of_derives derives rfl
    exact reads_listUntil full (fun empty => absurd empty begins.ne_nil)
      (begins.not_beginsWith (by decide))

theorem followed_object {properties : List Property} {opening closing : String}
    (derives : Phrase.Derives (.properties properties) ls (⟨.closeBrace, closing⟩ :: rest))
    (list : Followed (.properties properties) ls (⟨.closeBrace, closing⟩ :: rest)) :
    Followed (.objectLevel (.object properties .unplaced))
      (⟨.openBrace, opening⟩ :: (ls ++ [⟨.closeBrace, closing⟩])) rest := by
  intro _
  refine reaches_take_kind fun token _ => ?_
  refine (reads_properties derives list).bind fun entries made => ?_
  refine reaches_expect fun _ _ => reads_pure ?_
  simp only [Expr.shape, made]

theorem followed_value (inner : Followed (.objectLevel e) ls rest) : Followed (.expr e) ls rest := by
  intro loose
  rw [expression_eq]
  refine (inner (loose.mono (Nat.le_succ 5))).bind_last fun a made => ?_
  exact reaches_take_kind_none (loose.not_beginsWith fun _ => Nat.lt_succ_self 5) (reads_pure made)

theorem followed_assign {target value : Expr} {sign : String}
    (inner : Followed (.objectLevel target) left (⟨.assign, sign⟩ :: (right ++ rest)))
    (begins : Begins 2 right) (of_value : Followed (.expr value) right rest) :
    Followed (.expr (.assign target value .unplaced)) (left ++ ⟨.assign, sign⟩ :: right) rest := by
  intro loose
  rw [expression_eq]
  have target_read : Reads (objectOrLogical expression) (·.shape = target) left
      ((⟨.assign, sign⟩ :: right) ++ rest) := inner (loose_cons (Nat.le_refl 5))
  refine target_read.bind fun a made => ?_
  refine reaches_take_kind fun operator _ => ?_
  refine reaches_requireOperand begins.ne_nil ?_
  refine (of_value loose).bind_last fun b value_made => reads_pure ?_
  simp only [Expr.shape, made, value_made]

theorem followed_lastArg (inner : Followed (.expr e) ls rest) : Followed (.args [e]) ls rest := by
  intro loose ends _
  refine (reads_last steady_expression (inner loose) ends).imp ?_
  rintro _ ⟨a, rfl, made⟩
  simp only [exprShapes, made]

theorem followed_moreArgs {next : Expr} {others : List Expr} {comma : String}
    (inner : Followed (.expr e) left (⟨.comma, comma⟩ :: (right ++ rest))) (begins : Begins 2 right)
    (list : Followed (.args (next :: others)) right rest) :
    Followed (.args (e :: next :: others)) (left ++ ⟨.comma, comma⟩ :: right) rest := by
  intro loose ends _
  have first_read := inner (loose_cons (Nat.le_refl 6))
  refine (reads_more steady_expression first_read (list loose ends begins.ne_nil)).imp ?_
  rintro _ ⟨a, bs, rfl, made, others_made⟩
  simp only [exprShapes, made, others_made]

theorem followed_lastProperty {key colon : String} {value : Expr}
    (inner : Followed (.expr value) ls rest) :
    Followed (.properties [.mk key value .unplaced]) (⟨.name, key⟩ :: ⟨.colon, colon⟩ :: ls) rest := by
  intro loose ends _
  refine (reads_last steady_property (reads_property inner loose) ends).imp ?_
  rintro _ ⟨a, rfl, made⟩
  simp only [propertyShapes, made]

theorem followed_moreProperties {key colon comma : String} {value : Expr} {next : Property}
    {others : List Property}
    (inner : Followed (.expr value) left (⟨.comma, comma⟩ :: (right ++ rest)))
    (begins : Begins 0 right) (list : Followed (.properties (next :: others)) right rest) :
    Followed (.properties (.mk key value .unplaced :: next :: others))
      (⟨.name, key⟩ :: ⟨.colon, colon⟩ :: (left ++ ⟨.comma, comma⟩ :: right)) rest := by
  intro loose ends _
  have first_read : Reads (property expression) (·.shape = .mk key value .unplaced)
      (⟨.name, key⟩ :: ⟨.colon, colon⟩ :: left) (⟨.comma, comma⟩ :: (right ++ rest)) :=
    reads_property inner (loose_cons (Nat.le_refl 6))
  refine (reads_more steady_property first_read (list loose ends begins.ne_nil)).imp ?_
  rintro _ ⟨a, bs, rfl, made, others_made⟩
  simp only [propertyShapes, made, others_made]

/-- The parser follows every derivation of the grammar. -/
theorem followed_of_derives {phrase : Phrase} (h : phrase.Derives ls rest) :
    Followed phrase ls rest := by
  induction h with
  | value _ ih => exact followed_value ih
  | assign _ of_value ih_target ih_value =>
    exact followed_assign ih_target (begins_of_derives of_value rfl) ih_value
  | logical of_chain ih => exact followed_logical (begins_of_derives of_chain rfl) ih
  | object of_properties ih => exact followed_object of_properties ih
  | operand _ ih => exact followed_operand ih
  | @binary level op a b left right rest at_level _ of_right ih_left ih_right =>
    subst at_level
    have begins := begins_of_derives of_right (isEmpty_operand _ b)
    rw [first_operand] at begins
    exact followed_binary ih_left begins ih_right
  | not of_operand ih => exact followed_not (begins_of_derives of_operand rfl) ih
  | complete of_call ends ih => exact followed_complete (begins_of_derives of_call rfl) ih ends
  | callee _ ih => exact followed_callee ih
  | call _ of_args ih_callee ih_args => exact followed_call ih_callee of_args ih_args
  | root _ ih => exact ih.bind_last fun _ made => .done made
  | member _ ih => exact followed_member ih
  | name => exact followed_name
  | number denotes => exact followed_number denotes
  | text => exact followed_text
  | group of_inner ih => exact followed_group (begins_of_derives of_inner rfl) ih
  | noArgs => exact fun _ _ full => absurd rfl full
  | lastArg _ ih => exact followed_lastArg ih
  | moreArgs _ of_args ih ih_args =>
    exact followed_moreArgs ih (begins_of_derives of_args rfl) ih_args
  | noProperties => exact fun _ _ full => absurd rfl full
  | lastProperty _ ih => exact followed_lastProperty ih
  | moreProperties _ of_properties ih ih_properties =>
    exact followed_moreProperties ih (begins_of_derives of_properties rfl) ih_properties

end

end Parse

end Syntax

end Scriptlet
