import Mathlib.Data.List.Forall2
import Scriptlet.Proofs.Syntax.Moved
import Scriptlet.Proofs.Syntax.Reading
import Scriptlet.Proofs.Syntax.Recursion

/-!
# Parsers side by side

Two runs of a parser on the same lexemes in different places, the second with more tokens behind
them. A parser looks at kinds and texts only and copies spans, so that both runs give the same tree
in different places, or the same fault. The tokens behind are seen only by a parser that has used up
its own ones. `Parallel` says all this of two parsers, with one rule for each way in which parsers
are composed. It also counts the tokens read, for parsers that call themselves.
-/
namespace Scriptlet

/-- A way to relate spans that parsers cannot tell from equality. -/
structure Moving (S : Span → Span → Prop) : Prop where
  total : ∀ s, ∃ t, S s t
  cover : ∀ {a a' b b'}, S a a' → S b b' → S (a.cover b) (a'.cover b')

/-- The same lexeme in another place. -/
structure Token.Moved (S : Span → Span → Prop) (token other : Token) : Prop where
  kind_eq : token.kind = other.kind
  text_eq : token.text = other.text
  place : S token.span other.span

namespace Syntax

/-- After `d` come the tokens that come after `c`, in other places, and `more`. Those after `c` have
a last one with a given property. The tokens that were read before are the same lexeme too, once one
was read from both. -/
structure Cursor.Follows (S : Span → Span → Prop) (last : Token → Prop) (more : List Token)
    (seen : Nat) (c d : Cursor) : Prop where
  rest : ∃ front, List.Forall₂ (Token.Moved S) c.rest front ∧ d.rest = front ++ more
  last : ∀ token ∈ c.rest.getLast?, last token
  previous : 0 < seen →
    ∃ token other, c.previous = some token ∧ d.previous = some other ∧ token.Moved S other

namespace Parse

variable {α β γ δ : Type} {S : Span → Span → Prop} {last : Token → Prop} {more : List Token}
  {ends : Prop} {seen k j n m : Nat} {c d : Cursor}

/-- Where at most `n` tokens come, `q` does after more tokens what `p` does, and `p` reads at least
`k` tokens. What `q` does when `p` has used up its tokens is left open unless `ends` holds or
nothing comes behind them. `seen` tokens were read before. -/
structure Parallel (S : Span → Span → Prop) (last : Token → Prop) (more : List Token) (ends : Prop)
    (seen k n : Nat) (related : α → β → Prop) (p : Parse α) (q : Parse β) : Prop where
  reads : ∀ {c a d}, c.rest.length ≤ n → p c = .ok (a, d) →
    d.rest.length + k ≤ c.rest.length ∧ ∃ b, related a b
  ok : ∀ {c c' a d}, c.rest.length ≤ n → c.Follows S last more seen c' → p c = .ok (a, d) →
    (d.rest = [] → more ≠ [] → ends) →
      ∃ b d', q c' = .ok (b, d') ∧ related a b ∧ d.Follows S last more (seen + k) d'
  error : ∀ {c c' e}, c.rest.length ≤ n → c.Follows S last more seen c' → p c = .error e →
    more = [] → ∃ span, q c' = .error ⟨e.cause, span⟩

variable {related : α → β → Prop} {later : γ → δ → Prop} {p : Parse α} {q : Parse β}

theorem follows_mono {seen' : Nat} (h : c.Follows S last more seen d)
    (fewer : 0 < seen' → 0 < seen) : c.Follows S last more seen' d :=
  ⟨h.rest, h.last, fun some_ => h.previous (fewer some_)⟩

namespace Parallel

theorem fewer (h : Parallel S last more ends seen k n related p q) (le : m ≤ n) :
    Parallel S last more ends seen k m related p q :=
  ⟨fun bound => h.reads (Nat.le_trans bound le), fun bound => h.ok (Nat.le_trans bound le),
    fun bound => h.error (Nat.le_trans bound le)⟩

/-- A parser inside of brackets never uses up its tokens, so that what comes behind them does not
matter. -/
theorem inside (h : Parallel S last more ends seen k n related p q) :
    Parallel S last more False seen k n related p q :=
  ⟨h.reads, fun bound follows done left => h.ok bound follows done fun used_up some_more =>
    absurd (left used_up some_more) id, h.error⟩

theorem imp {related' : α → β → Prop} (h : Parallel S last more ends seen k n related p q)
    (implies : ∀ a b, related a b → related' a b) :
    Parallel S last more ends seen k n related' p q := by
  refine ⟨fun bound done => ?_, fun bound follows done left => ?_, h.error⟩
  · obtain ⟨fewer, b, same⟩ := h.reads bound done
    exact ⟨fewer, b, implies _ _ same⟩
  · obtain ⟨b, d', run, same, behind⟩ := h.ok bound follows done left
    exact ⟨b, d', run, implies _ _ same, behind⟩

theorem weaken (h : Parallel S last more ends seen k n related p q) (less : j ≤ k) :
    Parallel S last more ends seen j n related p q := by
  refine ⟨fun bound done => ?_, fun bound follows done left => ?_, h.error⟩
  · obtain ⟨fewer, partner⟩ := h.reads bound done
    exact ⟨by omega, partner⟩
  · obtain ⟨b, d', run, same, behind⟩ := h.ok bound follows done left
    exact ⟨b, d', run, same, follows_mono behind (by omega)⟩

/-- The second parsers may count on the tokens that the first ones read. If they have to read some
themselves, the first ones stand inside. -/
theorem bind_of_reach {outer : Prop} {f : α → Parse γ} {g : β → Parse δ}
    (h : Parallel S last more ends seen k n related p q) (reach : j ≤ k → outer → ends)
    (next : ∀ a b, related a b → ∀ m, m + k ≤ n →
      Parallel S last more outer (seen + k) (j - k) m later (f a) (g b)) :
    Parallel S last more outer seen j n later (p >>= f) (q >>= g) := by
  constructor
  · intro c r d bound done
    obtain ⟨a, e, first, second⟩ := bind_ok done
    obtain ⟨fewer, b, same⟩ := h.reads bound first
    obtain ⟨fewer', partner⟩ :=
      (next a b same e.rest.length (by omega)).reads (Nat.le_refl _) second
    exact ⟨by omega, partner⟩
  · intro c c' r d bound follows done left
    obtain ⟨a, e, first, second⟩ := bind_ok done
    obtain ⟨fewer, b, same⟩ := h.reads bound first
    have used_up : e.rest = [] → d.rest = [] ∧ j ≤ k := by
      intro none_left
      have fewer' := ((next a b same e.rest.length (by omega)).reads (Nat.le_refl _) second).1
      rw [none_left, List.length_nil] at fewer'
      exact ⟨List.length_eq_zero_iff.mp (by omega), by omega⟩
    obtain ⟨b', e', run, same', behind⟩ := h.ok bound follows first fun none_left some_more =>
      reach (used_up none_left).2 (left (used_up none_left).1 some_more)
    obtain ⟨r', d', run', result, behind'⟩ :=
      (next a b' same' e.rest.length (by omega)).ok (Nat.le_refl _) behind second left
    refine ⟨r', d', ?_, result, follows_mono behind' (by omega)⟩
    rw [bind_run, run]
    exact run'
  · intro c c' e bound follows failed nothing
    rw [bind_run] at failed ⊢
    cases first : p c with
    | error e' =>
      rw [first] at failed
      cases failed
      obtain ⟨span, run⟩ := h.error bound follows first nothing
      exact ⟨span, by rw [run]⟩
    | ok result =>
      obtain ⟨a, d⟩ := result
      rw [first] at failed
      have fewer := (h.reads bound first).1
      obtain ⟨b, d', run, same, behind⟩ := h.ok bound follows first fun _ some_more =>
        absurd nothing some_more
      obtain ⟨span, run'⟩ :=
        (next a b same d.rest.length (by omega)).error (Nat.le_refl _) behind failed nothing
      exact ⟨span, by rw [run]; exact run'⟩

theorem bind {f : α → Parse γ} {g : β → Parse δ}
    (h : Parallel S last more ends seen k n related p q)
    (next : ∀ a b, related a b → ∀ m, m + k ≤ n →
      Parallel S last more ends (seen + k) (j - k) m later (f a) (g b)) :
    Parallel S last more ends seen j n later (p >>= f) (q >>= g) :=
  h.bind_of_reach (fun _ => id) next

/-- What the first parsers read need not be counted. -/
theorem bind_uncounted {f : α → Parse γ} {g : β → Parse δ}
    (h : Parallel S last more ends seen k n related p q)
    (next : ∀ a b, related a b → ∀ m ≤ n, Parallel S last more ends seen j m later (f a) (g b)) :
    Parallel S last more ends seen j n later (p >>= f) (q >>= g) :=
  (h.weaken (Nat.zero_le k)).bind next

/-- What stands before a token that has to come, such as a closing bracket, stands inside. -/
theorem bind_closed {f : α → Parse γ} {g : β → Parse δ}
    (h : Parallel S last more False seen k n related p q) (few : j ≤ 1)
    (next : ∀ a b, related a b → ∀ m ≤ n, Parallel S last more ends seen 1 m later (f a) (g b)) :
    Parallel S last more ends seen j n later (p >>= f) (q >>= g) := by
  have counted : Parallel S last more ends seen 1 n later (p >>= f) (q >>= g) :=
    (h.weaken (Nat.zero_le k)).bind_of_reach (fun reach => absurd reach (by omega)) next
  exact counted.weaken few

end Parallel

theorem parallel_pure {a : α} {b : β} (same : related a b) :
    Parallel S last more ends seen 0 n related (pure a) (pure b) := by
  constructor
  · rintro c _ _ - ⟨⟩
    exact ⟨Nat.le_refl _, b, same⟩
  · rintro c c' _ _ - follows ⟨⟩ -
    exact ⟨b, c', rfl, same, follows⟩
  · rintro c c' _ - - ⟨⟩

theorem parallel_fail (cause : Fault) (span span' : Span) :
    Parallel S last more ends seen k n related (fail cause span) (fail cause span') := by
  constructor
  · rintro c _ _ - ⟨⟩
  · rintro c c' _ _ - - ⟨⟩
  · rintro c c' _ - - ⟨⟩ -
    exact ⟨span', rfl⟩

/-- The tokens that come, on both sides: none of their own, or the same lexeme first. -/
theorem follows_cases (follows : c.Follows S last more seen d) :
    c.rest = [] ∧ d.rest = more ∨
      ∃ token rest other front, c.rest = token :: rest ∧ d.rest = other :: (front ++ more) ∧
        token.Moved S other ∧ List.Forall₂ (Token.Moved S) rest front := by
  obtain ⟨front, same, behind⟩ := follows.rest
  cases own : c.rest with
  | nil =>
    rw [own] at same
    cases same
    exact .inl ⟨rfl, behind⟩
  | cons token rest =>
    rw [own] at same
    cases same with
    | cons first others => exact .inr ⟨token, rest, _, _, rfl, behind, first, others⟩

/-- A fault that is told from the tokens to come, and located by the cursor. -/
theorem parallel_get_fail (cause : Cursor → Fault) {place other : Cursor → Span}
    (alike : ∀ c d, c.Follows S last [] seen d → cause c = cause d) :
    Parallel S last more ends seen k n related (get >>= fun c => fail (cause c) (place c))
      (get >>= fun c => fail (cause c) (other c)) := by
  constructor
  · rintro c _ _ - ⟨⟩
  · rintro c c' _ _ - - ⟨⟩
  · rintro c c' _ - follows ⟨⟩ rfl
    refine ⟨other c', ?_⟩
    rw [alike c c' follows]
    rfl

/-- Both sides read their first token. -/
theorem follows_read {token other : Token} {rest front : List Token} {finish finish' : Span}
    (follows : c.Follows S last more seen d) (own : c.rest = token :: rest)
    (same : token.Moved S other) (others : List.Forall₂ (Token.Moved S) rest front) :
    Cursor.Follows S last more (seen + 1) ⟨some token, rest, finish⟩
      ⟨some other, front ++ more, finish'⟩ where
  rest := ⟨front, others, rfl⟩
  last final member := follows.last final (by
    rw [own, List.getLast?_cons, Option.mem_def.mp member]
    rfl)
  previous _ := ⟨token, other, rfl, rfl, same⟩

theorem take_bind_read {wanted : Token → Bool} (f : Option Token → Parse γ) {token : Token}
    {rest : List Token} (own : c.rest = token :: rest) (wants : wanted token = true) :
    (take? wanted >>= f) c = f (some token) ⟨some token, rest, c.finish⟩ := by
  rw [bind_run]
  simp only [take?, own, wants, if_true]

theorem take_bind_stay {wanted : Token → Bool} (f : Option Token → Parse γ)
    (unwanted : ∀ token ∈ c.rest.head?, wanted token = false) :
    (take? wanted >>= f) c = f none c := by
  rw [bind_run]
  unfold take?
  cases own : c.rest with
  | nil => rfl
  | cons token rest =>
    rw [own] at unwanted
    simp only [unwanted token rfl, Bool.false_eq_true, if_false]

section
variable (moving : Moving S) {wanted : Token → Bool}
  (respects : ∀ token other : Token, token.Moved S other → wanted token = wanted other)
include moving respects

/-- A token is read if it is wanted. The first of the tokens behind must not be, if it is possible
to go on without one. -/
theorem parallel_take_bind {f : Option Token → Parse γ} {g : Option Token → Parse δ}
    (unwanted : k = 0 → ends → ∀ token ∈ more.head?, wanted token = false)
    (read : ∀ token other : Token, token.Moved S other → wanted token = true → ∀ m < n,
      Parallel S last more ends (seen + 1) (k - 1) m later (f (some token)) (g (some other)))
    (stay : Parallel S last more ends seen k n later (f none) (g none)) :
    Parallel S last more ends seen k n later (take? wanted >>= f) (take? wanted >>= g) := by
  constructor
  · intro c r d bound done
    obtain ⟨taken, e, first, second⟩ := bind_ok done
    cases taken with
    | none =>
      obtain ⟨rfl, -⟩ := take_none_ok first
      exact stay.reads bound second
    | some token =>
      obtain ⟨wants, own⟩ := take_ok first
      obtain ⟨span, place⟩ := moving.total token.span
      have size := congrArg List.length own
      rw [List.length_cons] at size
      obtain ⟨fewer, partner⟩ := (read token ⟨token.kind, token.text, span⟩ ⟨rfl, rfl, place⟩ wants
        e.rest.length (by omega)).reads (Nat.le_refl _) second
      exact ⟨by omega, partner⟩
  · intro c c' r d bound follows done left
    obtain ⟨own, others⟩ | ⟨token, rest, other, front, own, others, same, behind⟩ :=
      follows_cases follows
    · rw [take_bind_stay f (by simp [own])] at done
      have used_up := (stay.reads bound done).1
      rw [own, List.length_nil] at used_up
      rw [take_bind_stay g]
      · exact stay.ok bound follows done left
      · rw [others]
        cases more with
        | nil => exact nofun
        | cons =>
          have finished : d.rest = [] := List.length_eq_zero_iff.mp (by omega)
          exact unwanted (by omega) (left finished (List.cons_ne_nil _ _))
    · cases wants : wanted token with
      | true =>
        rw [take_bind_read f own wants] at done
        rw [take_bind_read g others (respects _ _ same ▸ wants)]
        rw [own, List.length_cons] at bound
        obtain ⟨b, d', run, result, after⟩ := (read token other same wants rest.length bound).ok
          (Nat.le_refl _) (follows_read follows own same behind) done left
        exact ⟨b, d', run, result, follows_mono after (by omega)⟩
      | false =>
        rw [take_bind_stay f (by simpa [own] using wants)] at done
        rw [take_bind_stay g (by simpa [others, ← respects _ _ same] using wants)]
        exact stay.ok bound follows done left
  · intro c c' e bound follows failed nothing
    obtain ⟨own, others⟩ | ⟨token, rest, other, front, own, others, same, behind⟩ :=
      follows_cases follows
    · rw [take_bind_stay f (by simp [own])] at failed
      rw [take_bind_stay g (by simp [others, nothing])]
      exact stay.error bound follows failed nothing
    · cases wants : wanted token with
      | true =>
        rw [take_bind_read f own wants] at failed
        rw [take_bind_read g others (respects _ _ same ▸ wants)]
        rw [own, List.length_cons] at bound
        exact (read token other same wants rest.length bound).error (Nat.le_refl _)
          (follows_read follows own same behind) failed nothing
      | false =>
        rw [take_bind_stay f (by simpa [own] using wants)] at failed
        rw [take_bind_stay g (by simpa [others, ← respects _ _ same] using wants)]
        exact stay.error bound follows failed nothing

end

/-! Parsers of single tokens. -/

section
variable (moving : Moving S)
include moving

theorem parallel_accept_bind {kind : Token.Kind} {f : Bool → Parse γ} {g : Bool → Parse δ}
    (unwanted : k = 0 → ends → ∀ token ∈ more.head?, token.kind ≠ kind)
    (yes : ∀ m < n, Parallel S last more ends (seen + 1) (k - 1) m later (f true) (g true))
    (no : Parallel S last more ends seen k n later (f false) (g false)) :
    Parallel S last more ends seen k n later (accept kind >>= f) (accept kind >>= g) := by
  simp only [accept, bind_assoc, pure_bind]
  refine parallel_take_bind moving (fun _ _ same => by rw [same.kind_eq]) ?_ ?_ no
  · intro some_ end_ token head
    exact decide_eq_false (unwanted some_ end_ token head)
  · intro token other _ _ m less
    exact yes m less

theorem parallel_expect (expected : Expected) :
    Parallel S last more ends seen 1 n (Token.Moved S) (expect expected) (expect expected) := by
  unfold expect
  refine parallel_take_bind moving (fun _ _ same => by rw [same.kind_eq]) nofun ?_ ?_
  · intro token other same _ m _
    exact parallel_pure same
  · refine parallel_get_fail _ fun c d follows => ?_
    obtain ⟨own, others⟩ | ⟨token, rest, other, front, own, others, same, -⟩ :=
      follows_cases follows
    · rw [own, others]
    · rw [own, others, List.head?_cons, List.head?_cons, Option.map_some, Option.map_some,
        same.text_eq]

theorem parallel_lastSpan (known : 0 < seen) :
    Parallel S last more ends seen 0 n S lastSpan lastSpan := by
  constructor
  · rintro c _ _ - ⟨⟩
    exact ⟨Nat.le_refl _, moving.total _⟩
  · rintro c c' _ _ - follows ⟨⟩ -
    obtain ⟨token, other, left, right, same⟩ := follows.previous known
    refine ⟨_, c', rfl, ?_, follows⟩
    simp only [left, right, Option.map_some, Option.getD_some]
    exact same.place
  · rintro c c' _ - - ⟨⟩

end

/-- Inside, the next token is the same lexeme on both sides, if there is one. -/
theorem parallel_peek (moving : Moving S) :
    Parallel S last more False seen 0 n (Option.Rel (Token.Moved S)) peek? peek? := by
  constructor
  · rintro c _ _ - ⟨⟩
    refine ⟨Nat.le_refl _, ?_⟩
    cases c.rest.head? with
    | none => exact ⟨none, .none⟩
    | some token =>
      obtain ⟨span, place⟩ := moving.total token.span
      exact ⟨some ⟨token.kind, token.text, span⟩, .some ⟨rfl, rfl, place⟩⟩
  · rintro c c' _ _ - follows ⟨⟩ inside
    refine ⟨_, c', rfl, ?_, follows⟩
    obtain ⟨own, others⟩ | ⟨token, rest, other, front, own, others, same, -⟩ :=
      follows_cases follows
    · have nothing : more = [] := by
        by_contra some_more
        exact inside own some_more
      rw [own, others, nothing]
      exact .none
    · rw [own, others]
      exact .some same
  · rintro c c' _ - - ⟨⟩

theorem parallel_nextIs (moving : Moving S) (kind : Token.Kind) :
    Parallel S last more False seen 0 n Eq (nextIs kind) (nextIs kind) := by
  unfold nextIs
  refine (parallel_peek moving).bind fun next other same m _ => parallel_pure ?_
  cases same with
  | none => rfl
  | some same => rw [Option.any_some, Option.any_some, same.kind_eq]

theorem requireOperand_run (operator : Token) (c : Cursor) :
    requireOperand operator c =
      if c.rest = [] then .error ⟨.missingOperand operator.text, operator.span⟩
      else .ok ((), c) := by
  obtain ⟨previous, rest, finish⟩ := c
  cases rest <;> rfl

/-- Something follows on both sides, or the operand is missing on both. -/
theorem parallel_requireOperand {operator other : Token} (same : operator.Moved S other) :
    Parallel S last more ends seen 0 n (fun _ _ => True) (requireOperand operator)
      (requireOperand other) := by
  constructor
  · intro c _ d _ done
    rw [requireOperand_run] at done
    split at done <;> cases done
    exact ⟨Nat.le_refl _, (), trivial⟩
  · rintro c c' _ d - follows done -
    rw [requireOperand_run] at done
    split at done <;> cases done
    rename_i something
    refine ⟨(), c', ?_, trivial, follows⟩
    obtain ⟨own, -⟩ | ⟨token, rest, next, front, own, others, -, -⟩ := follows_cases follows
    · exact absurd own something
    · rw [requireOperand_run, if_neg (by simp [others])]
  · rintro c c' e _ follows failed rfl
    rw [requireOperand_run] at failed
    split at failed <;> cases failed
    rename_i nothing
    obtain ⟨own, others⟩ | ⟨token, rest, next, front, own, others, -, -⟩ := follows_cases follows
    · exact ⟨other.span, by rw [requireOperand_run, if_pos others, same.text_eq]⟩
    · rw [own] at nothing
      cases nothing

/-- The first token of a statement is read, whatever it is, and its place is kept. Without one there
is the same fault on both sides. -/
theorem parallel_keyword (moving : Moving S) (some_ : 0 < k) {f : Option Token → Span → Parse γ}
    {g : Option Token → Span → Parse δ} (cause : Fault) (place : Cursor → Span)
    (missing : ∀ start c, c.rest = [] → f none start c = .error ⟨cause, place c⟩)
    (missing' : ∀ start c, c.rest = [] → g none start c = .error ⟨cause, place c⟩)
    (read : ∀ token other : Token, token.Moved S other → ∀ start start', S start start' → ∀ m < n,
      Parallel S last more ends (seen + 1) (k - 1) m later (f (some token) start)
        (g (some other) start')) :
    Parallel S last more ends seen k n later
      (take? (fun _ => true) >>= fun keyword => lastSpan >>= f keyword)
      (take? (fun _ => true) >>= fun keyword => lastSpan >>= g keyword) := by
  have canonical : ∀ {ε : Type} (h : Option Token → Span → Parse ε),
      (∀ start c, c.rest = [] → h none start c = .error ⟨cause, place c⟩) →
      (take? (fun _ => true) >>= fun keyword => lastSpan >>= h keyword) =
        take? (fun _ => true) >>= fun keyword =>
          keyword.elim (get >>= fun c => fail cause (place c)) fun token =>
            lastSpan >>= h (some token) := by
    intro ε h absent
    funext c
    cases own : c.rest with
    | nil =>
      rw [take_bind_stay _ (by simp [own]), take_bind_stay _ (by simp [own])]
      exact absent _ c own
    | cons token rest =>
      rw [take_bind_read _ own rfl, take_bind_read _ own rfl, Option.elim_some]
  rw [canonical f missing, canonical g missing']
  refine parallel_take_bind moving (fun _ _ _ => rfl) (by omega) ?_ ?_
  · intro token other same _ m less
    refine (parallel_lastSpan moving (by omega)).bind fun start start' place l le => ?_
    exact (read token other same start start' place m less).fewer (by omega)
  · exact parallel_get_fail _ fun _ _ _ => rfl

/-! Sequences, which stand inside of brackets. -/

section
variable (moving : Moving S) {alike : α → α → Prop} {item : Parse α}
include moving

/-- The induction is on the tokens that come: each round has read a comma. -/
theorem parallel_commaSeparated (steady : Steady 0 item)
    (items : ∀ m ≤ n, ∀ seen, Parallel S last more False seen 0 m alike item item) :
    Parallel S last more False seen 0 n (List.Forall₂ alike) (commaSeparated item)
      (commaSeparated item) := by
  induction n using Nat.strongRecOn generalizing seen with
  | ind n ih =>
  rw [commaSeparated_eq steady]
  refine (items n (Nat.le_refl n) seen).bind fun first other same m le => ?_
  refine parallel_accept_bind moving (fun _ => nofun) (fun m' less => ?_) ?_
  · refine (ih m' (by omega) fun l le' => items l (by omega)).bind fun rest others all _ _ => ?_
    exact parallel_pure (.cons same all)
  · exact parallel_pure (.cons same .nil)

theorem parallel_listUntil (closing : Token.Kind) (steady : Steady 0 item)
    (items : ∀ m ≤ n, ∀ seen, Parallel S last more False seen 0 m alike item item) :
    Parallel S last more False seen 0 n (List.Forall₂ alike) (listUntil closing item)
      (listUntil closing item) := by
  unfold listUntil
  refine (parallel_nextIs moving closing).bind fun empty _ same m le => ?_
  subst same
  cases empty with
  | true => exact parallel_pure .nil
  | false => exact parallel_commaSeparated moving steady fun l le' => items l (by omega)

theorem parallel_sequenceUntil {stop : Token → Bool}
    (respects : ∀ token other : Token, token.Moved S other → stop token = stop other)
    (steady : Steady 1 item)
    (items : ∀ m ≤ n, ∀ seen, Parallel S last more False seen 1 m alike item item) :
    Parallel S last more False seen 0 n (List.Forall₂ alike) (sequenceUntil stop item)
      (sequenceUntil stop item) := by
  induction n using Nat.strongRecOn generalizing seen with
  | ind n ih =>
  rw [sequenceUntil_eq stop steady]
  refine (parallel_peek moving).bind fun next other same m le => ?_
  cases same with
  | none => exact parallel_pure .nil
  | @some token other same =>
    simp only [respects _ _ same]
    split
    · exact parallel_pure .nil
    · refine (items m (by omega) _).bind fun first first' same' m' le' => ?_
      refine (ih m' (by omega) fun l le => items l (by omega)).bind fun rest rest' all _ _ => ?_
      exact parallel_pure (.cons same' all)

end

end Parse

end Syntax

end Scriptlet
