import Scriptlet.Proofs.Syntax.Pointing.Grammar
import Scriptlet.Proofs.Syntax.PrintedTree
import Scriptlet.Proofs.Syntax.Completeness.Expression
import Scriptlet.Proofs.Syntax.Soundness.Expression

/-!
# Precedence and associativity

Operands with operators between them, whatever levels these are of, make one tree: that of the
operator which ties the least, the rightmost one if there are several, over the trees of what stands
before and behind it (`Chain.tree`). Such a chain is derived as one of the level of that operator,
by an induction on the tree, and the parser reads what is derived.
-/
namespace Scriptlet

open Grammar (Phrase Loose operand rank)
open Token (BeginsWith Lexeme lexemes)

/-- What follows a phrase matters only where it is an opening parenthesis. -/
theorem Grammar.Phrase.Derives.before {phrase : Phrase} {ls rest rest' : List Lexeme}
    (h : phrase.Derives ls rest) (ends : BeginsWith .openParen rest' → BeginsWith .openParen rest) :
    phrase.Derives ls rest' := by
  induction h generalizing rest' with
  | value _ ih => exact .value (ih ends)
  | assign _ _ ih_target ih_value => exact .assign (ih_target id) (ih_value ends)
  | logical _ ih => exact .logical (ih ends)
  | object _ ih => exact .object (ih id)
  | operand _ ih => exact .operand (ih ends)
  | binary at_level _ _ ih_left ih_right => exact .binary at_level (ih_left id) (ih_right ends)
  | not _ ih => exact .not (ih ends)
  | complete _ ended ih => exact .complete (ih ends) fun begins => ended (ends begins)
  | callee _ ih => exact .callee (ih ends)
  | call _ _ ih_callee ih_args => exact .call (ih_callee id) (ih_args id)
  | root _ ih => exact .root (ih ends)
  | member _ ih => exact .member (ih id)
  | name => exact .name
  | number denotes => exact .number denotes
  | text => exact .text
  | group _ ih => exact .group (ih id)
  | noArgs => exact .noArgs
  | lastArg _ ih => exact .lastArg (ih ends)
  | moreArgs _ _ ih ih_args => exact .moreArgs (ih id) (ih_args ends)
  | noProperties => exact .noProperties
  | lastProperty _ ih => exact .lastProperty (ih ends)
  | moreProperties _ _ ih ih_properties => exact .moreProperties (ih id) (ih_properties ends)

/-- A chain of a level is one of every looser level. -/
theorem Grammar.chain_of_tighter {tight loose : Syntax.Level} {e : Expr} {ls rest : List Lexeme}
    (h : Phrase.Derives (.chain tight e) ls rest) (le : rank tight ≤ rank loose) :
    Phrase.Derives (.chain loose e) ls rest := by
  cases loose with
  | logical => exact logical_of_chain h
  | comparison =>
    cases tight with
    | multiplicative => exact .operand (.operand h)
    | additive => exact .operand h
    | comparison => exact h
    | logical => simp [rank] at le
  | additive =>
    cases tight with
    | multiplicative => exact .operand h
    | additive => exact h
    | comparison | logical => simp [rank] at le
  | multiplicative =>
    cases tight with
    | multiplicative => exact h
    | additive | comparison | logical => simp [rank] at le

namespace Syntax

namespace Chain

/-- Tokens that the parser of operands reads on their own, to the last one. -/
structure Operand where
  tokens : List Token
  tree : Expr
  alone : ∃ previous finish d,
    Parse.unary Parse.expression ⟨previous, tokens, finish⟩ = .ok (tree, d) ∧ d.rest = []

/-- An operator and the operand on its right. -/
structure Link where
  sign : Token
  op : Operator
  spells : sign.lexeme = op.lexeme
  operand : Operand

/-- The tokens of a chain: an operand, and any number of operators with an operand each. -/
def tokens (first : Operand) (links : List Link) : List Token :=
  first.tokens ++ links.flatMap fun link => link.sign :: link.operand.tokens

/-- The last of the operators that tie the least, with what stands before and behind it. -/
def loosest? : List Link → Option (List Link × Link × List Link)
  | [] => none
  | link :: rest =>
    match loosest? rest with
    | none => some ([], link, rest)
    | some (front, last, back) =>
      if rank link.op.level ≤ rank last.op.level then some (link :: front, last, back)
      else some ([], link, rest)

variable {first : Operand} {link : Link} {links front back : List Link}

theorem loosest?_eq_none (none_ : loosest? links = none) : links = [] := by
  cases links with
  | nil => rfl
  | cons link rest =>
    simp only [loosest?] at none_
    split at none_
    · cases none_
    · split at none_ <;> cases none_

theorem eq_append_of_loosest (found : loosest? links = some (front, link, back)) :
    links = front ++ link :: back ∧ (∀ other ∈ front, rank other.op.level ≤ rank link.op.level) ∧
      ∀ other ∈ back, rank other.op.level < rank link.op.level := by
  induction links generalizing front link back with
  | nil => cases found
  | cons head rest ih =>
    simp only [loosest?] at found
    split at found
    · next none_ =>
      cases found
      obtain rfl := loosest?_eq_none none_
      exact ⟨rfl, List.forall_mem_nil _, List.forall_mem_nil _⟩
    · next front' last back' rest_found =>
      obtain ⟨rfl, before, behind⟩ := ih rest_found
      split at found
      · next looser =>
        cases found
        exact ⟨rfl, List.forall_mem_cons.mpr ⟨looser, before⟩, behind⟩
      · next tighter =>
        cases found
        have tighter := Nat.lt_of_not_le tighter
        refine ⟨rfl, List.forall_mem_nil _, fun other member => ?_⟩
        rcases List.mem_append.mp member with earlier | later
        · exact Nat.lt_of_le_of_lt (before other earlier) tighter
        · rcases List.mem_cons.mp later with rfl | later
          · exact tighter
          · exact Nat.lt_trans (behind other later) tighter

/-- The tree of a chain. One operand is its own tree, and a longer chain is split at the last of the
operators that tie the least. -/
def tree (first : Operand) (links : List Link) : Expr :=
  match split : loosest? links with
  | none => first.tree
  | some (front, link, back) =>
    have : links = front ++ link :: back := (eq_append_of_loosest split).1
    .binary link.op (tree first front) (tree link.operand back) .unplaced
termination_by links.length
decreasing_by
  all_goals
    subst this
    rw [List.length_append, List.length_cons]
    omega

theorem tree_nil : tree first [] = first.tree := by
  rw [tree]
  rfl

/-- Where a chain is split. -/
theorem loosest?_append (before : ∀ other ∈ front, rank other.op.level ≤ rank link.op.level)
    (behind : ∀ other ∈ back, rank other.op.level < rank link.op.level) :
    loosest? (front ++ link :: back) = some (front, link, back) := by
  have last : loosest? (link :: back) = some ([], link, back) := by
    rw [loosest?]
    cases split : loosest? back with
    | none => rfl
    | some found =>
      obtain ⟨front', last, back'⟩ := found
      obtain ⟨rfl, -, -⟩ := eq_append_of_loosest split
      exact if_neg (Nat.not_le_of_lt (behind last (by simp)))
  induction front with
  | nil => exact last
  | cons head front ih =>
    obtain ⟨looser, before⟩ := List.forall_mem_cons.mp before
    rw [List.cons_append, loosest?, ih before]
    exact if_pos looser

/-- A chain is split at an operator if none before it ties less, and all behind it tie more. -/
theorem tree_append (before : ∀ other ∈ front, rank other.op.level ≤ rank link.op.level)
    (behind : ∀ other ∈ back, rank other.op.level < rank link.op.level) :
    tree first (front ++ link :: back) =
      .binary link.op (tree first front) (tree link.operand back) .unplaced := by
  rw [tree]
  split
  · next none_ =>
    rw [loosest?_append before behind] at none_
    cases none_
  · next front' link' back' found =>
    rw [loosest?_append before behind] at found
    cases found
    rfl

theorem lexemes_tokens : lexemes (tokens first (front ++ link :: back)) =
    lexemes (tokens first front) ++ link.op.lexeme :: lexemes (tokens link.operand back) := by
  simp [tokens, link.spells]

/-- An operand in front of anything but an opening parenthesis. -/
theorem Operand.derives (x : Operand) {rest : List Lexeme} (ends : ¬ BeginsWith .openParen rest) :
    Phrase.Derives (.unary x.tree.shape) (lexemes x.tokens) rest := by
  obtain ⟨previous, finish, d, run, all⟩ := x.alone
  obtain ⟨ls, spelled, derives⟩ := Parse.sound_unary Parse.sound_expression _ _ _ run
  rw [all, Token.lexemes_nil] at derives spelled
  rw [List.append_nil] at spelled
  exact spelled ▸ derives.before fun begins => absurd begins ends

/-- Operands of a level are made of chains of tighter levels. -/
theorem operand_of_tighter {level : Level} {e : Expr} {ls rest : List Lexeme}
    (tighter : ∀ other ∈ links, rank other.op.level < rank level)
    (alone : links = [] → Phrase.Derives (.unary e) ls rest)
    (chains : ∀ tight, (∀ other ∈ links, rank other.op.level ≤ rank tight) →
      Phrase.Derives (.chain tight e) ls rest) :
    Phrase.Derives (operand level e) ls rest := by
  have within (tight : Level) (next : rank level = rank tight + 1) :
      Phrase.Derives (.chain tight e) ls rest := by
    refine chains tight fun other member => ?_
    have tied := tighter other member
    omega
  cases level with
  | logical => exact within .comparison rfl
  | comparison => exact within .additive rfl
  | additive => exact within .multiplicative rfl
  | multiplicative =>
    refine alone (List.eq_nil_iff_forall_not_mem.mpr fun other member => ?_)
    have none_ := tighter other member
    cases level : other.op.level <;> rw [level] at none_ <;> simp [rank] at none_

/-- The tree of a chain is derived at every level that ties no more than its operators. The
induction is on the way in which the tree is split. -/
theorem derives_tree (first : Operand) (links : List Link) : ∀ level,
    (∀ other ∈ links, rank other.op.level ≤ rank level) →
    ∀ rest, ¬ BeginsWith .openParen rest →
      Phrase.Derives (.chain level (tree first links).shape) (lexemes (tokens first links))
        rest := by
  induction first, links using tree.induct with
  | case1 first links none_ =>
    intro level _ rest ends
    obtain rfl := loosest?_eq_none none_
    rw [tree_nil, tokens, List.flatMap_nil, List.append_nil]
    exact Grammar.chain_of_unary (first.derives ends) level
  | case2 first front link back split ih_front ih_back =>
    intro level bound rest ends
    obtain ⟨-, before, behind⟩ := eq_append_of_loosest split
    rw [tree_append before behind, lexemes_tokens]
    have of_left := ih_front link.op.level before
      (link.op.lexeme :: (lexemes (tokens link.operand back) ++ rest))
      (Grammar.not_beginsWith_operator _ _)
    have alone (none_ : back = []) : Phrase.Derives (.unary (tree link.operand back).shape)
        (lexemes (tokens link.operand back)) rest := by
      rw [none_, tree_nil, tokens, List.flatMap_nil, List.append_nil]
      exact link.operand.derives ends
    have of_right := operand_of_tighter behind alone fun tight within =>
      ih_back tight within rest ends
    exact Grammar.chain_of_tighter (.binary rfl of_left of_right) (bound link (by simp))

end Chain

/-- Whether a token can go on with an expression that stands before it. -/
def continues (token : Token) : Bool :=
  token.kind ∈ [.openParen, .period, .arithmetic, .comparison, .logical, .assign]

theorem ends_of_not_continues {follow : List Token}
    (ends : ∀ token ∈ follow.head?, continues token = false) :
    ¬ BeginsWith .openParen (lexemes follow) ∧ Loose 6 (lexemes follow) := by
  cases follow with
  | nil => exact ⟨nofun, nofun⟩
  | cons token rest =>
    obtain ⟨kind, text, span⟩ := token
    have ended := ends _ rfl
    refine ⟨?_, Grammar.loose_cons ?_⟩
    · intro begins
      obtain rfl : kind = .openParen := by simpa [BeginsWith, Token.lexeme] using begins
      cases ended
    · cases kind <;> simp [continues] at ended <;> exact Nat.le_refl 6

theorem rank_le_logical (level : Level) : rank level ≤ rank .logical := by
  cases level <;> simp [rank]

/-- **Precedence and associativity.** Operands that the parser reads on their own, with operators
between them and behind them a token that goes on with no expression, are read to the last one. The
expression is the tree of the chain: it is split at the last of the operators that tie the least. -/
theorem expression_of_chain (first : Chain.Operand) (links : List Chain.Link) (follow : List Token)
    (ends : ∀ token ∈ follow.head?, continues token = false) (c : Cursor)
    (ahead : c.rest = Chain.tokens first links ++ follow) :
    ∃ read d, Parse.expression c = .ok (read, d) ∧ d.rest = follow ∧
      read.shape = (Chain.tree first links).shape := by
  obtain ⟨no_paren, loose⟩ := ends_of_not_continues ends
  have of_chain :=
    Chain.derives_tree first links .logical (fun link _ => rank_le_logical _) _ no_paren
  have followed := Parse.followed_of_derives (.value (.logical of_chain)) loose
  obtain ⟨read, d, run, left, made⟩ := followed c (by rw [ahead, Token.lexemes_append])
  have behind : d.rest <:+ Chain.tokens first links ++ follow :=
    ahead ▸ Parse.suffix_of_expression run
  have length := congrArg List.length left
  simp only [lexemes, List.length_map] at length
  have within := List.suffix_of_suffix_length_le behind (List.suffix_append _ _) length.le
  exact ⟨read, d, run, within.eq_of_length length, made⟩

/-- A name as an operand. -/
def Chain.Operand.name (text : String) (start : Nat) : Chain.Operand :=
  ⟨[⟨.name, text, .single start⟩], .name text (.single start), none, .empty 0, _, rfl, rfl⟩

/-- In `a - f(x) * !b - c == d;` a call and a negation are operands, and the first difference is on
the left of the second one. -/
theorem expression_of_chain_of_levels :
    let call : Chain.Operand :=
      ⟨[⟨.name, "f", ⟨4, 5⟩⟩, ⟨.openParen, "(", ⟨5, 6⟩⟩, ⟨.name, "x", ⟨6, 7⟩⟩,
        ⟨.closeParen, ")", ⟨7, 8⟩⟩], .call (.name "f" ⟨4, 5⟩) [.name "x" ⟨6, 7⟩] ⟨4, 8⟩,
        none, .empty 0, _, rfl, rfl⟩
    let negated : Chain.Operand :=
      ⟨[⟨.negation, "!", ⟨11, 12⟩⟩, ⟨.name, "b", ⟨12, 13⟩⟩], .not (.name "b" ⟨12, 13⟩) ⟨11, 13⟩,
        none, .empty 0, _, rfl, rfl⟩
    let minus : Operator := .arithmetic .subtract
    let times : Operator := .arithmetic .multiply
    let equal : Operator := .comparison .equal
    let links : List Chain.Link :=
      [⟨⟨.arithmetic, "-", ⟨2, 3⟩⟩, minus, rfl, call⟩,
        ⟨⟨.arithmetic, "*", ⟨9, 10⟩⟩, times, rfl, negated⟩,
        ⟨⟨.arithmetic, "-", ⟨14, 15⟩⟩, minus, rfl, .name "c" 16⟩,
        ⟨⟨.comparison, "==", ⟨18, 20⟩⟩, equal, rfl, .name "d" 21⟩]
    let semicolon : Token := ⟨.semicolon, ";", ⟨22, 23⟩⟩
    ∃ read d, Parse.expression
        ⟨none, Chain.tokens (.name "a" 0) links ++ [semicolon], .empty 23⟩ = .ok (read, d) ∧
      d.rest = [semicolon] ∧
      read.shape = (Expr.binary equal
        (.binary minus
          (.binary minus (.name "a" (.single 0)) (.binary times call.tree negated.tree .unplaced)
            .unplaced)
          (.name "c" (.single 16)) .unplaced)
        (.name "d" (.single 21)) .unplaced).shape := by
  intro call negated minus times equal links semicolon
  obtain ⟨read, d, run, left, made⟩ := expression_of_chain (.name "a" 0) links [semicolon]
    (by decide) ⟨none, Chain.tokens (.name "a" 0) links ++ [semicolon], .empty 23⟩ rfl
  refine ⟨read, d, run, left, ?_⟩
  rw [made]
  simp [links, equal, minus, times, Chain.tree, Chain.loosest?, rank, Operator.level,
    Chain.Operand.name]

end Syntax

end Scriptlet
