import Scriptlet.Syntax.Cursor

/-!
# Agreement of parsers

`Parse.fix` counts the rounds of a parser that calls itself. The count never matters where the parser
reads a token before it calls itself and never puts one back (`fix_eq`). Both are said by one
relation, `Agree`: up to `n` tokens two parsers do the same, and what they read is at least `k`
tokens. Whoever has read a token may rely on what agrees up to fewer tokens only.
-/
namespace Scriptlet

namespace Syntax

namespace Parse

variable {α β : Type} {k j n m : Nat}

/-- On cursors with at most `n` tokens to come, two parsers do the same and read at least `k` tokens
where they succeed. -/
def Agree (k n : Nat) (p q : Parse α) : Prop :=
  ∀ c : Cursor, c.rest.length ≤ n →
    p c = q c ∧ ∀ a d, p c = .ok (a, d) → d.rest.length + k ≤ c.rest.length

/-- A parser that agrees with itself: it reads at least `k` tokens where it succeeds. -/
def Steady (k : Nat) (p : Parse α) : Prop := ∀ n, Agree k n p p

theorem Agree.mono {p q : Parse α} (h : Agree k n p q) (fewer : m ≤ n) : Agree k m p q :=
  fun c bound => h c (Nat.le_trans bound fewer)

theorem Agree.weaken {p q : Parse α} (h : Agree k n p q) (less : j ≤ k) : Agree j n p q := by
  intro c bound
  obtain ⟨same, reads⟩ := h c bound
  exact ⟨same, fun a d done => Nat.le_trans (Nat.add_le_add_left less _) (reads a d done)⟩

theorem bind_run (p : Parse α) (next : α → Parse β) (c : Cursor) :
    (p >>= next) c =
      match p c with
      | .ok (a, d) => next a d
      | .error e => .error e := by
  change (p c >>= fun r => next r.1 r.2) = _
  cases p c <;> rfl

theorem agree_pure (a : α) : Agree 0 n (pure a : Parse α) (pure a) := by
  intro c _
  refine ⟨rfl, ?_⟩
  rintro _ _ ⟨⟩
  exact Nat.le_refl _

theorem agree_fail (cause : Fault) (span : Span) :
    Agree k n (fail cause span : Parse α) (fail cause span) := by
  intro c _
  refine ⟨rfl, ?_⟩
  rintro _ _ ⟨⟩

theorem agree_get : Agree 0 n (get : Parse Cursor) get := by
  intro c _
  refine ⟨rfl, ?_⟩
  rintro _ _ ⟨⟩
  exact Nat.le_refl _

theorem agree_peek : Agree 0 n peek? peek? := by
  intro c _
  refine ⟨rfl, ?_⟩
  rintro _ _ ⟨⟩
  exact Nat.le_refl _

theorem Agree.bind {p q : Parse α} {next next' : α → Parse β} (h : Agree 0 n p q)
    (rest : ∀ a, Agree k n (next a) (next' a)) : Agree k n (p >>= next) (q >>= next') := by
  intro c bound
  obtain ⟨same, reads⟩ := h c bound
  rw [bind_run, bind_run, ← same]
  cases first : p c with
  | error e => exact ⟨rfl, fun _ _ failed => by cases failed⟩
  | ok result =>
    obtain ⟨a, d⟩ := result
    have shorter := reads a d first
    obtain ⟨same', reads'⟩ := rest a d (by omega)
    exact ⟨same', fun b e done => Nat.le_trans (reads' b e done) shorter⟩

/-- Behind a parser that reads a token, agreement up to fewer tokens is enough. -/
theorem Agree.bind_fewer {p q : Parse α} {next next' : α → Parse β} (h : Agree 1 n p q)
    (rest : ∀ a, ∀ m < n, Agree 0 m (next a) (next' a)) :
    Agree 1 n (p >>= next) (q >>= next') := by
  intro c bound
  obtain ⟨same, reads⟩ := h c bound
  rw [bind_run, bind_run, ← same]
  cases first : p c with
  | error e => exact ⟨rfl, fun _ _ failed => by cases failed⟩
  | ok result =>
    obtain ⟨a, d⟩ := result
    have shorter := reads a d first
    obtain ⟨same', reads'⟩ := rest a d.rest.length (by omega) d (Nat.le_refl _)
    refine ⟨same', ?_⟩
    intro b e done
    have := reads' b e done
    omega

theorem agree_take_bind (fewer : k ≤ 1) {wanted : Token → Bool} {next next' : Option Token → Parse β}
    (read : ∀ token, ∀ m < n, Agree 0 m (next (some token)) (next' (some token)))
    (stay : Agree k n (next none) (next' none)) :
    Agree k n (take? wanted >>= next) (take? wanted >>= next') := by
  intro c bound
  rw [bind_run, bind_run]
  obtain ⟨previous, rest, finish⟩ := c
  cases rest with
  | nil => exact stay _ bound
  | cons token rest =>
    cases wants : wanted token with
    | false => simpa only [take?, wants, Bool.false_eq_true, if_false] using stay _ bound
    | true =>
      simp only [take?, wants, if_true]
      obtain ⟨same, reads⟩ := read token rest.length bound ⟨some token, rest, finish⟩ (Nat.le_refl _)
      refine ⟨same, ?_⟩
      intro a d done
      have := reads a d done
      simp only [List.length_cons] at this ⊢
      omega

theorem agree_take (wanted : Token → Bool) : Agree 0 n (take? wanted) (take? wanted) := by
  have h : Agree 0 n (take? wanted >>= pure) (take? wanted >>= pure) :=
    agree_take_bind (by omega) (fun token m _ => agree_pure _) (agree_pure _)
  simpa only [bind_pure] using h

theorem agree_accept_bind (fewer : k ≤ 1) {kind : Token.Kind} {next next' : Bool → Parse β}
    (yes : ∀ m < n, Agree 0 m (next true) (next' true)) (no : Agree k n (next false) (next' false)) :
    Agree k n (accept kind >>= next) (accept kind >>= next') := by
  simp only [accept, bind_assoc, pure_bind]
  exact agree_take_bind fewer (fun token => yes) no

theorem agree_accept (kind : Token.Kind) : Agree 0 n (accept kind) (accept kind) := by
  unfold accept
  exact (agree_take _).bind fun _ => agree_pure _

theorem agree_expect (expected : Expected) : Agree 1 n (expect expected) (expect expected) := by
  unfold expect
  apply agree_take_bind (Nat.le_refl 1)
  · intro token m _
    exact agree_pure token
  · exact agree_get.bind fun _ => agree_fail _ _

theorem agree_nextIs (kind : Token.Kind) : Agree 0 n (nextIs kind) (nextIs kind) := by
  unfold nextIs
  exact agree_peek.bind fun _ => agree_pure _

theorem agree_lastSpan : Agree 0 n lastSpan lastSpan := by
  unfold lastSpan
  exact agree_get.bind fun _ => agree_pure _

/-- Rounds of two parsers that call themselves agree as soon as there are more rounds than tokens to
come, if the bodies agree whenever what they call agrees up to fewer tokens. -/
theorem agree_unroll {body body' : (α → Parse β) → α → Parse β}
    (step : ∀ n' ≤ n, ∀ f g : α → Parse β, (∀ m < n', ∀ a, Agree k m (f a) (g a)) →
      ∀ a, Agree k n' (body f a) (body' g a)) (i j : Nat) (hi : n < i) (hj : n < j) (a : α) :
    Agree k n (unroll body i a) (unroll body' j a) := by
  induction i generalizing n j a with
  | zero => omega
  | succ i ih =>
    cases j with
    | zero => omega
    | succ j =>
      apply step n (Nat.le_refl n)
      intro m less b
      exact ih (fun n' le => step n' (by omega)) j (by omega) (by omega) b

theorem agree_fix {body body' : (α → Parse β) → α → Parse β}
    (step : ∀ n' ≤ n, ∀ f g : α → Parse β, (∀ m < n', ∀ a, Agree k m (f a) (g a)) →
      ∀ a, Agree k n' (body f a) (body' g a)) (a : α) : Agree k n (fix body a) (fix body' a) := by
  intro c bound
  exact agree_unroll (n := c.rest.length) (fun n' le => step n' (Nat.le_trans le bound)) _ _
    (Nat.lt_succ_self _) (Nat.lt_succ_self _) a c (Nat.le_refl _)

/-- A parser that calls itself is its body, if the body agrees with itself whenever what it calls
agrees up to fewer tokens. -/
theorem fix_eq (k : Nat) {body : (α → Parse β) → α → Parse β}
    (step : ∀ n, ∀ f g : α → Parse β, (∀ m < n, ∀ a, Agree k m (f a) (g a)) →
      ∀ a, Agree k n (body f a) (body g a)) (a : α) : fix body a = body (fix body) a := by
  funext c
  have once := step c.rest.length (unroll body c.rest.length) (fix body) ?_ a
  · exact (once c (Nat.le_refl _)).1
  · intro m less b d bound
    exact agree_unroll (n := d.rest.length) (fun n' _ => step n') _ _ (by omega)
      (Nat.lt_succ_self _) b d (Nat.le_refl _)

section
variable {item item' : Parse α}

theorem commaSeparated_step (items : Agree 0 n item item') {again again' : Unit → Parse (List α)}
    (calls : ∀ m < n, ∀ u, Agree 0 m (again u) (again' u)) :
    Agree 0 n
      (do
        let first ← item
        if ← accept .comma then return first :: (← again ()) else return [first])
      (do
        let first ← item'
        if ← accept .comma then return first :: (← again' ()) else return [first]) := by
  apply items.bind
  intro first
  apply agree_accept_bind (by omega)
  · intro m less
    exact (calls m less ()).bind fun _ => agree_pure _
  · exact agree_pure _

theorem agree_commaSeparated (items : Agree 0 n item item') :
    Agree 0 n (commaSeparated item) (commaSeparated item') :=
  agree_fix (fun _ le _ _ calls _ => commaSeparated_step (items.mono le) calls) ()

theorem commaSeparated_eq (items : Steady 0 item) :
    commaSeparated item = do
      let first ← item
      if ← accept .comma then return first :: (← commaSeparated item) else return [first] :=
  fix_eq 0 (fun n _ _ calls _ => commaSeparated_step (items n) calls) ()

theorem agree_listUntil (closing : Token.Kind) (items : Agree 0 n item item') :
    Agree 0 n (listUntil closing item) (listUntil closing item') := by
  unfold listUntil
  apply (agree_nextIs closing).bind
  intro empty
  split
  · exact agree_pure _
  · exact agree_commaSeparated items

theorem sequenceUntil_step {stop : Token → Bool} (items : Agree 1 n item item')
    {again again' : Unit → Parse (List α)} (calls : ∀ m < n, ∀ u, Agree 0 m (again u) (again' u)) :
    Agree 0 n
      (do
        match ← peek? with
        | none => return []
        | some token => if stop token then return [] else return (← item) :: (← again ()))
      (do
        match ← peek? with
        | none => return []
        | some token => if stop token then return [] else return (← item') :: (← again' ())) := by
  apply agree_peek.bind
  intro next
  cases next with
  | none => exact agree_pure _
  | some token =>
    dsimp only
    split
    · exact agree_pure _
    · refine (items.bind_fewer ?_).weaken (by omega)
      intro first m less
      exact (calls m less ()).bind fun _ => agree_pure _

theorem agree_sequenceUntil (stop : Token → Bool) (items : Agree 1 n item item') :
    Agree 0 n (sequenceUntil stop item) (sequenceUntil stop item') :=
  agree_fix (fun _ le _ _ calls _ => sequenceUntil_step (items.mono le) calls) ()

/-- Every item of a sequence has at least one token, so that the sequence ends. -/
theorem sequenceUntil_eq (stop : Token → Bool) (items : Steady 1 item) :
    sequenceUntil stop item = do
      match ← peek? with
      | none => return []
      | some token =>
        if stop token then return [] else return (← item) :: (← sequenceUntil stop item) :=
  fix_eq 0 (fun n _ _ calls _ => sequenceUntil_step (items n) calls) ()

end

end Parse

end Syntax

end Scriptlet
