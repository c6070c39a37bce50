import Scriptlet.Proofs.Syntax.Agreement
import Scriptlet.Proofs.Syntax.Walk.Looking

/-!
# Following a parser

A walk follows a parser if it comes to the same result and again stands where the cursor stands
(`Follows`). This is the invariant of all walks: whoever follows a parser has kept before the first
end marker (`Within`) and has stopped early for faults of the grammar only.

As for `Parse.Agree`, a walk follows on cursors with up to some number of tokens to come and reads at
least some number. A loop with more rounds than there are tokens to come never uses them up.
-/
namespace Scriptlet

namespace Syntax

namespace Walk

open Parse (bind_run take? unroll)

variable {α β : Type} {k j n m : Nat} {t : Layout} {c : Cursor} {token : Token} {rest : List Token}

/-- A walk has ended as a parser has that had `bound` tokens to come and reads at least `k`. -/
inductive Meets (t : Layout) (k bound : Nat) :
    Except Halt α × Walker → Except (Located Fault) (α × Cursor) → Prop
  | value {a : α} {w : Walker} {d : Cursor} (stands : Stands t w d)
      (reads : d.rest.length + k ≤ bound) : Meets t k bound (.ok a, w) (.ok (a, d))
  | fault {e : Located Fault} {w : Walker} (within : Within t w) (named : e.cause ≠ .unfinished) :
      Meets t k bound (.error (.fault e), w) (.error e)

/-- From where the cursor `c` stands, a walk ends as `read` says. -/
def Runs (t : Layout) (k : Nat) (c : Cursor) (p : Walk α)
    (read : Except (Located Fault) (α × Cursor)) : Prop :=
  ∀ w, Stands t w c → Meets t k c.rest.length (p w) read

/-- On cursors with at most `n` tokens to come, a walk does what a parser does, and both read at
least `k` tokens where they succeed. -/
def Follows (t : Layout) (k n : Nat) (p : Walk α) (q : Parse α) : Prop :=
  ∀ c : Cursor, c.rest.length ≤ n → Runs t k c p (q c)

theorem Meets.mono {walked : Except Halt α × Walker} {read : Except (Located Fault) (α × Cursor)}
    {bound bound' : Nat} (h : Meets t k bound walked read) (le : bound + j ≤ bound' + k) :
    Meets t j bound' walked read := by
  cases h with
  | value stands reads => exact .value stands (by omega)
  | fault within named => exact .fault within named

theorem Runs.weaken {p : Walk α} {read : Except (Located Fault) (α × Cursor)}
    (h : Runs t k c p read) (less : j ≤ k) : Runs t j c p read :=
  fun w stands => (h w stands).mono (by omega)

theorem Follows.mono {p : Walk α} {q : Parse α} (h : Follows t k n p q) (fewer : m ≤ n) :
    Follows t k m p q :=
  fun c bound => h c (Nat.le_trans bound fewer)

theorem Follows.weaken {p : Walk α} {q : Parse α} (h : Follows t k n p q) (less : j ≤ k) :
    Follows t j n p q :=
  fun c bound => (h c bound).weaken less

theorem follows_pure (a : α) : Follows t 0 n (pure a) (pure a) :=
  fun _ _ _ stands => .value stands (Nat.le_refl _)

theorem follows_fail {cause : Fault} (span : Span) (named : cause ≠ .unfinished) :
    Follows t k n (fail cause span : Walk α) (Parse.fail cause span) :=
  fun _ _ _ stands => .fault stands.toWithin named

/-- A parser that fails does not go on. -/
theorem follows_fail_bind {cause : Fault} (span : Span) (next : α → Parse β)
    (named : cause ≠ .unfinished) :
    Follows t k n (fail cause span : Walk β) (Parse.fail cause span >>= next) :=
  follows_fail span named

theorem Runs.bind {p : Walk α} {next : α → Walk β} {q : Parse α} {next' : α → Parse β}
    (first : Runs t j c p (q c))
    (second : ∀ a d, d.rest.length + j ≤ c.rest.length → Runs t k d (next a) (next' a d)) :
    Runs t (j + k) c (p >>= next) ((q >>= next') c) := by
  intro w stands
  have met := first w stands
  rw [bind_apply, bind_run]
  generalize p w = walked at met ⊢
  generalize q c = read at met ⊢
  cases met with
  | value stands reads => exact (second _ _ reads _ stands).mono (by omega)
  | fault within named => exact .fault within named

theorem Follows.bind {p : Walk α} {q : Parse α} {next : α → Walk β} {next' : α → Parse β}
    (h : Follows t 0 n p q) (rest : ∀ a, Follows t k n (next a) (next' a)) :
    Follows t k n (p >>= next) (q >>= next') := by
  intro c bound
  rw [← Nat.zero_add k]
  exact (h c bound).bind fun a d shorter => rest a d (by omega)

/-- Behind a walk that reads a token, following up to fewer tokens is enough. -/
theorem Follows.bind_fewer {p : Walk α} {q : Parse α} {next : α → Walk β} {next' : α → Parse β}
    (h : Follows t 1 n p q) (rest : ∀ a, ∀ m < n, Follows t 0 m (next a) (next' a)) :
    Follows t 1 n (p >>= next) (q >>= next') :=
  fun c bound => (h c bound).bind fun a d shorter => rest a d.rest.length (by omega) d (Nat.le_refl _)

theorem Runs.tell {p : Walk α} {a : α} {next : α → Walk β}
    {read : Except (Located Fault) (β × Cursor)} (told : Tells t c p a)
    (h : Runs t k c (next a) read) : Runs t k c (p >>= next) read := by
  intro w stands
  obtain ⟨w', run, stands'⟩ := told w stands
  rw [bind_apply, run]
  exact h w' stands'

/-- The next token is read, and the walk goes on behind it. -/
theorem Runs.advance {next : Token → Walk β} {read : Except (Located Fault) (β × Cursor)}
    (here : c.rest = token :: rest) (h : Runs t 0 ⟨some token, rest, c.finish⟩ (next token) read) :
    Runs t 1 c (Walk.advance >>= next) read := by
  intro w stands
  obtain ⟨w', run, stands'⟩ := tells_isAtEnd w stands
  obtain ⟨v, run', stands_v⟩ := tells_previous _ (stands'.step here)
  have advanced : Walk.advance w = (.ok token, v) := by
    rw [Walk.advance, bind_apply, run, here]
    exact run'
  rw [bind_apply, advanced]
  exact (h v stands_v).mono (Nat.le_of_eq (congrArg List.length here).symm)

/-- A parser reads the next token if it is wanted. A walk looks first. -/
theorem follows_look_bind {look : Walk Bool} {wanted : Token → Bool}
    (looks : ∀ c, Tells t c look (c.rest.head?.any wanted)) {yes no : Walk β}
    {next' : Option Token → Parse β}
    (read : ∀ c token rest, c.rest = token :: rest → wanted token = true → c.rest.length ≤ n →
      Runs t k c yes (next' (some token) ⟨some token, rest, c.finish⟩))
    (stay : Follows t k n no (next' none)) :
    Follows t k n (do if ← look then yes else no) (take? wanted >>= next') := by
  intro c bound
  apply Runs.tell (looks c)
  rw [bind_run, take?]
  cases ahead : c.rest with
  | nil => exact stay c bound
  | cons token rest =>
    rw [List.head?_cons, Option.any_some]
    cases wants : wanted token with
    | false => simpa only [wants, Bool.false_eq_true, if_false] using stay c bound
    | true => simpa only [wants, if_true] using read c token rest ahead wants bound

/-- A wanted token is read and known to be the last one. -/
theorem follows_take_bind' (fewer : k ≤ 1) {look : Walk Bool} {wanted : Token → Bool}
    (looks : ∀ c, Tells t c look (c.rest.head?.any wanted)) {yes : Token → Walk β} {no : Walk β}
    {next' : Option Token → Parse β}
    (read : ∀ token d, d.previous = some token → d.rest.length < n →
      Runs t 0 d (yes token) (next' (some token) d))
    (stay : Follows t k n no (next' none)) :
    Follows t k n (do if ← look then yes (← Walk.advance) else no) (take? wanted >>= next') := by
  refine follows_look_bind looks ?_ stay
  intro c token rest here _ bound
  rw [here, List.length_cons] at bound
  exact (Runs.advance here (read token _ rfl bound)).weaken fewer

theorem follows_take_bind (fewer : k ≤ 1) {look : Walk Bool} {wanted : Token → Bool}
    (looks : ∀ c, Tells t c look (c.rest.head?.any wanted)) {yes : Token → Walk β} {no : Walk β}
    {next' : Option Token → Parse β}
    (read : ∀ token, ∀ m < n, Follows t 0 m (yes token) (next' (some token)))
    (stay : Follows t k n no (next' none)) :
    Follows t k n (do if ← look then yes (← Walk.advance) else no) (take? wanted >>= next') :=
  follows_take_bind' fewer looks
    (fun token d _ shorter => read token d.rest.length shorter d (Nat.le_refl _)) stay

theorem Runs.consume {kind : Token.Kind} {otherwise : Option String → Span → Halt}
    {next : Token → Walk β} {read : Except (Located Fault) (β × Cursor)}
    (here : c.rest = token :: rest) (of_kind : token.kind = kind)
    (h : Runs t 0 ⟨some token, rest, c.finish⟩ (next token) read) :
    Runs t 1 c (Walk.consume kind otherwise >>= next) read := by
  unfold Walk.consume
  rw [bind_assoc]
  apply Runs.tell (tells_check kind)
  rw [here, List.head?_cons, Option.any_some, decide_eq_true of_kind, if_pos rfl]
  exact Runs.advance here h

/-! A keyword is known before it is read, and its place is where a statement begins. -/

theorem Runs.keyword {next : Token → Walk β} {next' : Option Token → Span → Parse β}
    (here : c.rest = token :: rest) (bound : c.rest.length ≤ n)
    (h : ∀ m < n, Follows t 0 m (next token) (next' (some token) token.span)) :
    Runs t 1 c (Walk.advance >>= next)
      ((do
        let keyword ← take? fun _ => true
        let start ← Parse.lastSpan
        next' keyword start) c) := by
  have read : (do
      let keyword ← take? fun _ => true
      let start ← Parse.lastSpan
      next' keyword start : Parse β) c =
      next' (some token) token.span ⟨some token, rest, c.finish⟩ := by
    rw [bind_run]
    simp only [take?, here, if_true]
    rfl
  rw [read]
  rw [here, List.length_cons] at bound
  exact Runs.advance here (h rest.length bound _ (Nat.le_refl _))

theorem accept_bind (kind : Token.Kind) (next : Bool → Walk β) :
    accept kind >>= next = (do
      if ← check kind then
        let _ ← Walk.advance
        next true
      else next false) := by
  unfold accept
  rw [bind_assoc]
  congr
  funext b
  cases b <;> simp

theorem follows_accept_bind (fewer : k ≤ 1) {kind : Token.Kind} {next : Bool → Walk β}
    {next' : Bool → Parse β} (yes : ∀ m < n, Follows t 0 m (next true) (next' true))
    (no : Follows t k n (next false) (next' false)) :
    Follows t k n (accept kind >>= next) (Parse.accept kind >>= next') := by
  simp only [accept_bind, Parse.accept, bind_assoc, pure_bind]
  apply follows_take_bind fewer (fun _ => tells_check kind)
  · exact fun _ => yes
  · exact no

theorem follows_accept (kind : Token.Kind) :
    Follows t 0 n (accept kind) (Parse.accept kind) := by
  have h : Follows t 0 n (accept kind >>= pure) (Parse.accept kind >>= pure) :=
    follows_accept_bind (by omega) (fun _ _ => follows_pure _) (follows_pure _)
  simpa only [bind_pure] using h

theorem follows_expect (expected : Expected) :
    Follows t 1 n (expect expected) (Parse.expect expected) := by
  have shape : expect expected = (do
      if ← check expected.kind then Walk.advance >>= pure
      else
        let span ← missingSpan
        let found ← describe
        fail (.missing expected found) span) := by
    rw [bind_pure]
    rfl
  rw [shape]
  apply follows_take_bind (Nat.le_refl 1) (fun _ => tells_check _)
  · intro token m _
    exact follows_pure token
  · intro c bound
    exact .tell tells_missingSpan (.tell tells_describe ((follows_fail _ (by simp)) c bound))

/-- What a parser finds out without reading. -/
theorem Tells.follows {p : Walk α} {q : Parse α} {value : Cursor → α}
    (told : ∀ c, Tells t c p (value c)) (read : ∀ c, q c = .ok (value c, c)) :
    Follows t 0 n p q := by
  intro c _ w stands
  obtain ⟨w', run, stands'⟩ := told c w stands
  rw [run, read]
  exact .value stands' (Nat.le_refl _)

theorem follows_nextIs (kind : Token.Kind) :
    Follows t 0 n (check kind) (Parse.nextIs kind) :=
  Tells.follows (fun _ => tells_check kind) fun _ => rfl

theorem follows_lastSpan : Follows t 0 n previousSpan Parse.lastSpan :=
  Tells.follows (fun _ => tells_previousSpan) fun _ => rfl

theorem follows_here_bind (next : Span → Walk β) {next' : Cursor → Parse β}
    (h : ∀ c, Follows t k n (next c.here) (next' c)) :
    Follows t k n (do next (← peek).span) (do next' (← get)) := by
  intro c bound
  have run : Runs t k c (do next (← (do return (← peek).span))) (next' c c) :=
    .tell tells_here (h c c bound)
  rw [bind_assoc] at run
  exact run

/-- A parser looks at what is to come. -/
theorem peek?_bind (next : Option Token → Parse β) (c : Cursor) :
    (Parse.peek? >>= next) c = next c.rest.head? c := rfl

theorem follows_requireOperand (operator : Token) :
    Follows t 0 n (requireOperand operator) (Parse.requireOperand operator) := by
  intro c bound
  rw [Parse.requireOperand, peek?_bind]
  apply Runs.tell tells_isAtEnd
  cases ahead : c.rest with
  | nil => exact (follows_fail _ (by simp)) c bound
  | cons token rest => exact follows_pure _ c bound

theorem traced_apply (p : Walk α) (w : Walker) :
    traced p w =
      match p w with
      | (.ok a, w') => (.ok a, w'.record (.reading w.current w'.current))
      | (.error h, w') => (.error h, w') := by
  rw [traced, bind_apply, get_apply]
  dsimp only
  rw [bind_apply]
  obtain ⟨result, w'⟩ := p w
  cases result <;> rfl

/-- A reading is entered into the trace as one of at least one token. -/
theorem Runs.traced {p : Walk α} {read : Except (Located Fault) (α × Cursor)}
    (h : Runs t 1 c p read) : Runs t 1 c (traced p) read := by
  intro w stands
  have met := h w stands
  have start := stands.length
  rw [traced_apply]
  generalize p w = walked at met ⊢
  cases met with
  | value stands' reads =>
    have stop := stands'.length
    exact .value (stands'.record ⟨by omega, stands'.inside⟩) reads
  | fault within named => exact .fault within named

/-- Rounds of a walk and of a parser that call themselves, with more rounds than tokens to come. -/
theorem follows_unroll {body : (α → Walk β) → α → Walk β} {body' : (α → Parse β) → α → Parse β}
    (step : ∀ n' ≤ n, ∀ f g, (∀ m < n', ∀ a, Follows t k m (f a) (g a)) →
      ∀ a, Follows t k n' (body f a) (body' g a)) (i j : Nat) (hi : n < i) (hj : n < j) (a : α) :
    Follows t k n (rounds body i a) (unroll body' j a) := by
  induction i generalizing n j a with
  | zero => omega
  | succ i ih =>
    cases j with
    | zero => omega
    | succ j =>
      apply step n (Nat.le_refl n)
      intro m less b
      exact ih (fun n' le => step n' (by omega)) j (by omega) (by omega) b

theorem follows_fix {limit : Nat} (enough : n < limit) {body : (α → Walk β) → α → Walk β}
    {body' : (α → Parse β) → α → Parse β}
    (step : ∀ n' ≤ n, ∀ f g, (∀ m < n', ∀ a, Follows t k m (f a) (g a)) →
      ∀ a, Follows t k n' (body f a) (body' g a)) (a : α) :
    Follows t k n (rounds body limit a) (Parse.fix body' a) := by
  intro c bound
  exact follows_unroll (n := c.rest.length) (fun n' le => step n' (Nat.le_trans le bound)) _ _
    (Nat.lt_of_le_of_lt bound enough) (Nat.lt_succ_self _) a c (Nat.le_refl _)

end Walk

end Syntax

end Scriptlet
