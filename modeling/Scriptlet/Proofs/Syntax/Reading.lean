import Scriptlet.Proofs.Syntax.Agreement
import Scriptlet.Proofs.Syntax.Grammar

/-!
# What the parsers of single tokens do

For each of them both directions. A success says something about the tokens to come (`_ok`), and
some tokens make it a success (`Reaches`). Only the tokens to come are followed; where a cursor was
before matters for spans alone.
-/
namespace Scriptlet

namespace Syntax

namespace Level

/-- The tokens that the parser takes for an operator of a level are those that spell one. -/
theorem operator_iff {level : Level} {token : Token} {op : Operator} :
    level.continuedBy token = true ∧ level.operator? token.text = some op ↔
      op.level = level ∧ token.lexeme = op.lexeme := by
  obtain ⟨kind, text, span⟩ := token
  simp only [Token.lexeme, Operator.lexeme, Token.Lexeme.mk.injEq]
  constructor
  · rintro ⟨continued, found⟩
    cases level <;> obtain ⟨x, listed, rfl⟩ := Option.map_eq_some_iff.mp found <;>
      have symbol := List.find?_some listed <;> rw [decide_eq_true_eq] at symbol <;> subst symbol
    case logical | comparison =>
      exact ⟨rfl, of_decide_eq_true continued, rfl⟩
    case additive | multiplicative =>
      cases x <;> simp_all [continuedBy, Operator.level, Operator.kind, Operator.symbol,
        Arithmetic.symbol]
  · rintro ⟨rfl, rfl, rfl⟩
    obtain x | x | x := op <;> cases x <;> exact ⟨rfl, rfl⟩

end Level

namespace Parse

open Token (BeginsWith Lexeme lexemes lexeme_of_kind)

variable {α β γ : Type} {c d : Cursor}

theorem bind_ok {p : Parse α} {next : α → Parse β} {b : β} (h : (p >>= next) c = .ok (b, d)) :
    ∃ a e, p c = .ok (a, e) ∧ next a e = .ok (b, d) := by
  rw [bind_run] at h
  cases first : p c with
  | error e => simp [first] at h
  | ok result => exact ⟨result.1, result.2, rfl, by simpa [first] using h⟩

theorem pure_ok {a b : α} (h : (pure a : Parse α) c = .ok (b, d)) : b = a ∧ d = c := by
  cases h
  exact ⟨rfl, rfl⟩

theorem fail_ne_ok {cause : Fault} {span : Span} {a : α} : fail cause span c ≠ .ok (a, d) := by
  rintro ⟨⟩

theorem get_ok {e : Cursor} (h : (get : Parse Cursor) c = .ok (e, d)) : e = c ∧ d = c := by
  cases h
  exact ⟨rfl, rfl⟩

theorem peek_ok {next : Option Token} (h : peek? c = .ok (next, d)) :
    next = c.rest.head? ∧ d = c := by
  cases h
  exact ⟨rfl, rfl⟩

theorem take_ok {wanted : Token → Bool} {token : Token} (h : take? wanted c = .ok (some token, d)) :
    wanted token = true ∧ c.rest = token :: d.rest := by
  unfold take? at h
  split at h
  · split at h
    · cases h
      exact ⟨‹_›, ‹_›⟩
    · cases h
  · cases h

theorem take_none_ok {wanted : Token → Bool} (h : take? wanted c = .ok (none, d)) :
    d = c ∧ c.rest.head?.all (!wanted ·) := by
  unfold take? at h
  split at h
  · rename_i token rest next
    split at h
    · cases h
    · rename_i unwanted
      cases h
      exact ⟨rfl, by simp [next, unwanted]⟩
  · rename_i none_left
    cases h
    exact ⟨rfl, by simp [none_left]⟩

theorem accept_true_ok {kind : Token.Kind} (h : accept kind c = .ok (true, d)) :
    ∃ text, lexemes c.rest = ⟨kind, text⟩ :: lexemes d.rest := by
  obtain ⟨taken, e, first, h⟩ := bind_ok h
  obtain ⟨some_, rfl⟩ := pure_ok h
  cases taken with
  | none => cases some_
  | some token =>
    obtain ⟨is_kind, rest⟩ := take_ok first
    refine ⟨token.text, ?_⟩
    rw [rest, Token.lexemes_cons, lexeme_of_kind (of_decide_eq_true is_kind)]

theorem accept_false_ok {kind : Token.Kind} (h : accept kind c = .ok (false, d)) :
    d = c ∧ ¬ BeginsWith kind (lexemes c.rest) := by
  obtain ⟨taken, e, first, h⟩ := bind_ok h
  obtain ⟨none_, rfl⟩ := pure_ok h
  cases taken with
  | some token => cases none_
  | none =>
    obtain ⟨rfl, other⟩ := take_none_ok first
    refine ⟨rfl, ?_⟩
    cases next : d.rest with
    | nil => simp [BeginsWith]
    | cons token rest => simpa [BeginsWith, next, Token.lexeme] using other

theorem expect_ok {expected : Expected} {token : Token} (h : expect expected c = .ok (token, d)) :
    lexemes c.rest = ⟨expected.kind, token.text⟩ :: lexemes d.rest := by
  obtain ⟨taken, e, first, h⟩ := bind_ok h
  cases taken with
  | none =>
    obtain ⟨_, _, _, h⟩ := bind_ok h
    exact absurd h fail_ne_ok
  | some found =>
    obtain ⟨rfl, rfl⟩ := pure_ok h
    obtain ⟨is_kind, rest⟩ := take_ok first
    rw [rest, Token.lexemes_cons, lexeme_of_kind (of_decide_eq_true is_kind)]

theorem nextIs_ok {kind : Token.Kind} {b : Bool} (h : nextIs kind c = .ok (b, d)) : d = c := by
  obtain ⟨next, e, first, h⟩ := bind_ok h
  obtain ⟨_, rfl⟩ := pure_ok h
  exact (peek_ok first).2

theorem lastSpan_ok {span : Span} (h : lastSpan c = .ok (span, d)) : d = c := by
  obtain ⟨_, e, first, h⟩ := bind_ok h
  obtain ⟨_, rfl⟩ := pure_ok h
  exact (get_ok first).2

/-- What holds of a parser that fails holds of a parser that calls itself if the body keeps it. -/
theorem fix_ok {body : (α → Parse β) → α → Parse β} {motive : α → Cursor → β → Cursor → Prop}
    (step : ∀ f : α → Parse β, (∀ a c b d, f a c = .ok (b, d) → motive a c b d) →
      ∀ a c b d, body f a c = .ok (b, d) → motive a c b d)
    {a : α} {b : β} (h : fix body a c = .ok (b, d)) : motive a c b d := by
  have rounds : ∀ n a c b d, unroll body n a c = .ok (b, d) → motive a c b d := by
    intro n
    induction n with
    | zero =>
      intro a c b d done
      obtain ⟨_, _, _, failed⟩ := bind_ok done
      exact absurd failed fail_ne_ok
    | succ n ih => exact step _ ih
  exact rounds _ _ _ _ _ h

/-! Which tokens a parser reads. -/

section
variable {kind : Token.Kind} {text : String} {ls left right rest : List Lexeme}

/-- In front of the lexemes `ls` and `rest`, a parser does what `q b` does in front of `rest`, for
some `b` with a property. -/
def Reaches (p : Parse α) (q : β → Parse α) (made : β → Prop) (ls rest : List Lexeme) : Prop :=
  ∀ c : Cursor, lexemes c.rest = ls ++ rest → ∃ b d, p c = q b d ∧ lexemes d.rest = rest ∧ made b

/-- In front of `ls` and `rest`, a parser succeeds, leaves `rest` and gives something with a
property. -/
abbrev Reads (p : Parse α) (made : α → Prop) : List Lexeme → List Lexeme → Prop :=
  Reaches p pure made

variable {q : γ → Parse β} {made : γ → Prop} {k : α → Parse β}

theorem Reaches.done {b : γ} (h : made b) : Reaches (q b) q made [] rest :=
  fun c spelled => ⟨b, c, rfl, spelled, h⟩

theorem reads_pure {a : α} {one : α → Prop} (h : one a) : Reads (pure a) one [] rest :=
  Reaches.done h

theorem Reaches.imp {other : γ → Prop} {p : Parse β} (h : Reaches p q made ls rest)
    (implies : ∀ b, made b → other b) : Reaches p q other ls rest := by
  intro c spelled
  obtain ⟨b, d, run, left_over, is_made⟩ := h c spelled
  exact ⟨b, d, run, left_over, implies b is_made⟩

theorem Reaches.trans {p : Parse β} {loop : α → Parse β} {one : α → Prop}
    (first : Reaches p loop one left (right ++ rest))
    (next : ∀ a, one a → Reaches (loop a) q made right rest) :
    Reaches p q made (left ++ right) rest := by
  intro c spelled
  obtain ⟨a, d, run, left_over, is_one⟩ := first c (by rw [spelled, List.append_assoc])
  rw [run]
  exact next a is_one d left_over

theorem Reads.bind {p : Parse α} {one : α → Prop} (first : Reads p one left (right ++ rest))
    (next : ∀ a, one a → Reaches (k a) q made right rest) :
    Reaches (p >>= k) q made (left ++ right) rest := by
  intro c spelled
  obtain ⟨a, d, run, left_over, is_one⟩ := first c (by rw [spelled, List.append_assoc])
  rw [bind_run, run]
  exact next a is_one d left_over

/-- A loop that ends at once. -/
theorem Reaches.finish {p : Parse β} {loop : α → Parse β} {one : α → Prop}
    (first : Reaches p loop one ls rest)
    (next : ∀ a, one a → Reaches (loop a) q made [] rest) : Reaches p q made ls rest := by
  have h : Reaches p q made (ls ++ []) rest := first.trans next
  rwa [List.append_nil] at h

/-- A parser that ends what another one began. -/
theorem Reads.bind_last {p : Parse α} {one : α → Prop} (first : Reads p one ls rest)
    (next : ∀ a, one a → Reaches (k a) q made [] rest) : Reaches (p >>= k) q made ls rest := by
  have h : Reaches (p >>= k) q made (ls ++ []) rest := first.bind next
  rwa [List.append_nil] at h

theorem reaches_take {wanted : Token → Bool} {k : Option Token → Parse β} {l : Lexeme}
    (fits : ∀ token : Token, token.lexeme = l → wanted token = true)
    (next : ∀ token : Token, token.lexeme = l → Reaches (k (some token)) q made ls rest) :
    Reaches (take? wanted >>= k) q made (l :: ls) rest := by
  rintro ⟨previous, tokens, finish⟩ spelled
  obtain ⟨token, behind, rfl, spells, left_over⟩ := Token.lexemes_eq_cons spelled
  rw [bind_run]
  simp only [take?, fits token spells, if_true]
  exact next token spells _ left_over

theorem reaches_take_none {wanted : Token → Bool} {k : Option Token → Parse β}
    (unfit : ∀ token : Token, (ls ++ rest).head? = some token.lexeme → wanted token = false)
    (next : Reaches (k none) q made ls rest) : Reaches (take? wanted >>= k) q made ls rest := by
  rintro ⟨previous, tokens, finish⟩ spelled
  rw [bind_run]
  cases tokens with
  | nil => exact next _ spelled
  | cons token behind =>
    have unwanted : wanted token = false := unfit token (by rw [← spelled]; rfl)
    simp only [take?, unwanted, Bool.false_eq_true, if_false]
    exact next _ spelled

theorem reaches_take_kind {k : Option Token → Parse β}
    (next : ∀ token : Token, token.lexeme = ⟨kind, text⟩ → Reaches (k (some token)) q made ls rest) :
    Reaches (take? (·.kind = kind) >>= k) q made (⟨kind, text⟩ :: ls) rest := by
  refine reaches_take ?_ next
  intro token spells
  exact decide_eq_true (congrArg Lexeme.kind spells)

theorem reaches_take_kind_none {k : Option Token → Parse β} (other : ¬ BeginsWith kind (ls ++ rest))
    (next : Reaches (k none) q made ls rest) :
    Reaches (take? (·.kind = kind) >>= k) q made ls rest := by
  refine reaches_take_none ?_ next
  intro token head
  refine decide_eq_false fun is_kind => other ?_
  rw [BeginsWith, head, Option.map_some, Token.lexeme, is_kind]

theorem reaches_accept {k : Bool → Parse β} (next : Reaches (k true) q made ls rest) :
    Reaches (accept kind >>= k) q made (⟨kind, text⟩ :: ls) rest := by
  simp only [accept, bind_assoc, pure_bind]
  exact reaches_take_kind fun _ _ => next

theorem reaches_accept_not {k : Bool → Parse β} (other : ¬ BeginsWith kind (ls ++ rest))
    (next : Reaches (k false) q made ls rest) : Reaches (accept kind >>= k) q made ls rest := by
  simp only [accept, bind_assoc, pure_bind]
  exact reaches_take_kind_none other next

theorem reaches_expect {expected : Expected} {k : Token → Parse β}
    (next : ∀ token : Token, token.text = text → Reaches (k token) q made ls rest) :
    Reaches (expect expected >>= k) q made (⟨expected.kind, text⟩ :: ls) rest := by
  simp only [expect, bind_assoc]
  refine reaches_take_kind fun token spells => ?_
  simp only [pure_bind]
  exact next token (congrArg Lexeme.text spells)

theorem reaches_nextIs {k : Bool → Parse β} (found : BeginsWith kind (ls ++ rest))
    (next : Reaches (k true) q made ls rest) : Reaches (nextIs kind >>= k) q made ls rest := by
  intro c spelled
  obtain ⟨b, d, run, result⟩ := next c spelled
  refine ⟨b, d, ?_, result⟩
  rw [← run, bind_run]
  have is_kind : c.rest.head?.any (·.kind = kind) = true := by
    rw [BeginsWith, ← spelled] at found
    cases tokens : c.rest <;> simp_all [Token.lexeme]
  change k (c.rest.head?.any (·.kind = kind)) c = _
  rw [is_kind]

theorem reaches_nextIs_not {k : Bool → Parse β} (other : ¬ BeginsWith kind (ls ++ rest))
    (next : Reaches (k false) q made ls rest) : Reaches (nextIs kind >>= k) q made ls rest := by
  intro c spelled
  obtain ⟨b, d, run, result⟩ := next c spelled
  refine ⟨b, d, ?_, result⟩
  rw [← run, bind_run]
  have is_other : c.rest.head?.any (·.kind = kind) = false := by
    rw [BeginsWith, ← spelled] at other
    cases tokens : c.rest <;> simp_all [Token.lexeme]
  change k (c.rest.head?.any (·.kind = kind)) c = _
  rw [is_other]

theorem reaches_peek {k : Option Token → Parse β}
    (next : ∀ token : Option Token, token.map Token.lexeme = (ls ++ rest).head? →
      Reaches (k token) q made ls rest) : Reaches (peek? >>= k) q made ls rest := by
  intro c spelled
  refine next c.rest.head? ?_ c spelled
  rw [← spelled, lexemes, List.head?_map]

theorem reaches_get {k : Cursor → Parse β} (next : ∀ c, Reaches (k c) q made ls rest) :
    Reaches (get >>= k) q made ls rest :=
  fun c spelled => next c c spelled

theorem reaches_lastSpan {k : Span → Parse β} (next : ∀ span, Reaches (k span) q made ls rest) :
    Reaches (lastSpan >>= k) q made ls rest :=
  fun c spelled => next _ c spelled

theorem reaches_requireOperand {operator : Token} {k : Unit → Parse β} (something : ls ≠ [])
    (next : Reaches (k ()) q made ls rest) :
    Reaches (requireOperand operator >>= k) q made ls rest := by
  intro c spelled
  have passes : requireOperand operator c = .ok ((), c) := by
    rw [requireOperand, bind_run]
    cases tokens : c.rest with
    | nil => simp_all
    | cons token behind =>
      simp only [peek?, tokens, List.head?_cons, Option.isNone_some, Bool.false_eq_true, if_false]
      rfl
  rw [bind_run, passes]
  exact next c spelled

end

end Parse

end Syntax

end Scriptlet
