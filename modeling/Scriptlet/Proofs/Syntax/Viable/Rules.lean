import Scriptlet.Proofs.Syntax.Reading
import Scriptlet.Proofs.Syntax.Recursion

/-!
# Input that is cut off

Two runs of a parser, one on some tokens and one on the first of these only. While tokens come, both
runs see the same ones. So where the full run succeeds, the short one does the same, or it uses up
its tokens; and from there on a parser either makes do with what it has, or misses a token. `Viable`
says this of a parser, with one rule for each way in which parsers are composed.
-/
namespace Scriptlet

namespace Syntax

/-- A fault that says that the input ends too early. -/
def Fault.AtEnd : Fault → Prop
  | .missing _ none | .unexpectedEnd | .missingOperand _ => True
  | _ => False

/-- After `d` come the tokens that come after `c`, and `more`. -/
structure Cursor.Extended (more : List Token) (c d : Cursor) : Prop where
  previous_eq : d.previous = c.previous
  rest_eq : d.rest = c.rest ++ more

namespace Parse

variable {α β : Type} {more : List Token} {k n m : Nat} {c d : Cursor}

/-- How a run ends that has used up its tokens: with a fault that says so, or, if `good` holds, with
a result. -/
inductive Ended (good : Prop) : Except (Located Fault) (α × Cursor) → Prop
  | value {a : α} {d : Cursor} (used_up : d.rest = []) (h : good) : Ended good (.ok (a, d))
  | fault {e : Located Fault} (at_end : e.cause.AtEnd) : Ended good (.error e)

/-- What a parser does where no token comes. -/
def Ends (good : Prop) (p : Parse α) : Prop := ∀ c : Cursor, c.rest = [] → Ended good (p c)

/-- If the full run succeeds, then so does the run on its first tokens, at most `n`, in the same way;
or the latter uses up its tokens. It may do so with a result of its own only if what `longer` says is
true of the full result. -/
structure Viable (more : List Token) (n : Nat) (longer : α → Prop) (p : Parse α) : Prop where
  ok : ∀ {c d b d'}, c.rest.length ≤ n → c.Extended more d → p d = .ok (b, d') →
    (∃ c', p c = .ok (b, c') ∧ c'.Extended more d') ∨ Ended (longer b) (p c)

/-! Where no token comes. -/

theorem Ended.imp {good better : Prop} {x : Except (Located Fault) (α × Cursor)} (h : Ended good x)
    (implies : good → better) : Ended better x := by
  cases h with
  | value used_up h => exact .value used_up (implies h)
  | fault at_end => exact .fault at_end

theorem Ended.bind {good better : Prop} {p : Parse α} {f : α → Parse β} (h : Ended good (p c))
    (next : good → ∀ a, Ends better (f a)) : Ended better ((p >>= f) c) := by
  rw [bind_run]
  cases first : p c with
  | ok result =>
    rw [first] at h
    cases h with
    | value used_up h => exact next h _ _ used_up
  | error e =>
    rw [first] at h
    cases h with
    | fault at_end => exact .fault at_end

variable {good : Prop}

theorem Ends.imp {better : Prop} {p : Parse α} (h : Ends good p) (implies : good → better) :
    Ends better p := fun c none => (h c none).imp implies

theorem Ends.bind {better : Prop} {p : Parse α} {f : α → Parse β} (h : Ends better p)
    (next : ∀ a, Ends good (f a)) : Ends good (p >>= f) := fun c none =>
  (h c none).bind fun _ => next

/-- A parser that needs a token. -/
theorem Ends.bind_stuck {p : Parse α} {f : α → Parse β} (h : Ends False p) : Ends good (p >>= f) :=
  fun c none => (h c none).bind False.elim

theorem ends_pure {a : α} (h : good) : Ends good (pure a : Parse α) := fun _ none => .value none h

theorem ends_get : Ends True (get : Parse Cursor) := fun _ none => .value none trivial

theorem ends_lastSpan : Ends True lastSpan := fun _ none => .value none trivial

theorem ends_take_bind {wanted : Token → Bool} {f : Option Token → Parse β} (h : Ends good (f none)) :
    Ends good (take? wanted >>= f) := by
  rintro ⟨previous, rest, finish⟩ rfl
  exact h _ rfl

theorem ends_peek_bind {f : Option Token → Parse β} (h : Ends good (f none)) :
    Ends good (peek? >>= f) := by
  rintro ⟨previous, rest, finish⟩ rfl
  exact h _ rfl

theorem ends_accept_bind {kind : Token.Kind} {f : Bool → Parse β} (h : Ends good (f false)) :
    Ends good (accept kind >>= f) := by
  simp only [accept, bind_assoc, pure_bind]
  exact ends_take_bind h

theorem ends_expect (expected : Expected) : Ends False (expect expected) := by
  rintro ⟨previous, rest, finish⟩ rfl
  exact .fault trivial

/-! Where the full run goes on. -/

variable {longer : α → Prop} {outer : β → Prop} {p : Parse α} {f : α → Parse β}

/-- Behind a parser that reads at least `k` tokens. If the short run has used up its tokens there
with a result of its own, then it has nothing left to fail for but the end of the input. -/
theorem Viable.bind (h : Viable more n longer p) (steady : Steady k p)
    (next : ∀ b m, m + k ≤ n → Viable more m outer (f b))
    (ends : ∀ b, longer b → ∀ d r d', f b d = .ok (r, d') → ∀ a, Ends (outer r) (f a)) :
    Viable more n outer (p >>= f) := by
  constructor
  intro c d r d' bound extended done
  obtain ⟨b, d₁, first, second⟩ := bind_ok done
  rcases h.ok bound extended first with ⟨c₁, run, extended₁⟩ | ended
  · have reads := (steady c.rest.length c (Nat.le_refl _)).2 b c₁ run
    rw [bind_run, run]
    exact (next b c₁.rest.length (by omega)).ok (Nat.le_refl _) extended₁ second
  · exact .inr (ended.bind fun h => ends b h _ _ _ second)

/-- Behind a parser that ends with a token that has to come. -/
theorem Viable.bind_closed (h : Viable more n (fun _ => False) p) (steady : Steady k p)
    (next : ∀ b m, m + k ≤ n → Viable more m outer (f b)) : Viable more n outer (p >>= f) :=
  h.bind steady next fun _ => False.elim

/-- Behind a parser that may end anywhere, something that needs no token, or misses one. -/
theorem Viable.bind_open (h : Viable more n longer p) (steady : Steady k p)
    (next : ∀ b m, m + k ≤ n → Viable more m (fun _ => good) (f b)) (ends : ∀ a, Ends good (f a)) :
    Viable more n (fun _ => good) (p >>= f) :=
  h.bind steady next fun _ _ _ _ _ _ => ends

theorem viable_pure {a : α} : Viable more n longer (pure a) := by
  constructor
  rintro c _ _ _ - extended ⟨⟩
  exact .inl ⟨c, rfl, extended⟩

theorem viable_fail {cause : Fault} {span : Span} : Viable more n longer (fail cause span) := by
  constructor
  rintro c _ _ _ - - ⟨⟩

theorem fail_bind_ne_ok {cause : Fault} {span : Span} {r : β × Cursor} :
    (fail cause span >>= f) d ≠ .ok r := nofun

theorem viable_fail_bind {cause : Fault} {span : Span} :
    Viable more n outer (fail cause span >>= f) := by
  constructor
  rintro c _ _ _ - - ⟨⟩

theorem viable_get_fail {cause : Cursor → Fault} {place : Cursor → Span} :
    Viable more n longer (get >>= fun c => fail (cause c) (place c)) := by
  constructor
  rintro c _ _ _ - - ⟨⟩

/-- The tokens that come: none to the short run, or the same first one to both. -/
theorem extended_cases (extended : c.Extended more d) :
    c.rest = [] ∨ ∃ token rest, c.rest = token :: rest ∧ d.rest = token :: (rest ++ more) := by
  cases own : c.rest with
  | nil => exact .inl rfl
  | cons token rest => exact .inr ⟨token, rest, rfl, by rw [extended.rest_eq, own]; rfl⟩

/-- A token that is wanted is read on both sides. Where none comes, the short run goes on without. -/
theorem viable_take_bind {wanted : Token → Bool} {f : Option Token → Parse β}
    (read : ∀ token, wanted token = true → ∀ m < n, Viable more m outer (f (some token)))
    (stay : Viable more n outer (f none))
    (ends : ∀ token d r d', wanted token = true → f (some token) d = .ok (r, d') →
      Ends (outer r) (f none)) : Viable more n outer (take? wanted >>= f) := by
  constructor
  intro c d r d' bound extended done
  rcases extended_cases extended with own | ⟨token, rest, own, others⟩
  · have short : (take? wanted >>= f) c = f none c := by
      rw [bind_run]
      simp only [take?, own]
    rw [short]
    obtain ⟨taken, d₁, first, second⟩ := bind_ok done
    cases taken with
    | none =>
      obtain ⟨rfl, -⟩ := take_none_ok first
      exact stay.ok bound extended second
    | some token => exact .inr (ends token _ _ _ (take_ok first).1 second c own)
  · rw [bind_run] at done ⊢
    simp only [take?, own, others] at done ⊢
    cases wants : wanted token with
    | true =>
      simp only [wants, if_true] at done ⊢
      rw [own, List.length_cons] at bound
      have extended' : Cursor.Extended more ⟨some token, rest, c.finish⟩
          ⟨some token, rest ++ more, d.finish⟩ := ⟨rfl, rfl⟩
      exact (read token wants rest.length bound).ok (Nat.le_refl _) extended' done
    | false =>
      simp only [wants, Bool.false_eq_true, if_false] at done ⊢
      exact stay.ok bound extended done

theorem viable_accept_bind {kind : Token.Kind} {f : Bool → Parse β}
    (yes : ∀ m < n, Viable more m outer (f true)) (no : Viable more n outer (f false))
    (ends : ∀ d r d', f true d = .ok (r, d') → Ends (outer r) (f false)) :
    Viable more n outer (accept kind >>= f) := by
  simp only [accept, bind_assoc, pure_bind]
  exact viable_take_bind (fun _ _ => yes) no fun _ d r d' _ => ends d r d'

theorem viable_take (wanted : Token → Bool) : Viable more n (fun _ => True) (take? wanted) := by
  have h : Viable more n (fun _ => True) (take? wanted >>= pure) :=
    viable_take_bind (fun _ _ _ _ => viable_pure) viable_pure fun _ _ _ _ _ _ => ends_pure trivial
  simpa only [bind_pure] using h

theorem viable_accept (kind : Token.Kind) : Viable more n (fun _ => True) (accept kind) := by
  unfold accept
  exact (viable_take _).bind_open (fun _ => agree_take _) (fun _ _ _ => viable_pure)
    fun _ => ends_pure trivial

theorem viable_expect (expected : Expected) :
    Viable more n (fun _ => False) (expect expected) := by
  unfold expect
  refine viable_take_bind (fun _ _ _ _ => viable_pure) viable_get_fail ?_
  rintro _ _ _ _ _ _ ⟨previous, rest, finish⟩ rfl
  exact .fault trivial

theorem viable_lastSpan : Viable more n (fun _ => True) lastSpan := by
  constructor
  rintro c d _ _ - extended ⟨⟩
  rcases extended_cases extended with own | ⟨token, rest, own, others⟩
  · exact .inr (.value own trivial)
  · refine .inl ⟨c, ?_, extended⟩
    change Except.ok ((c.previous.map (·.span)).getD c.here, c) = _
    rw [extended.previous_eq, Cursor.here, Cursor.here, own, others]

/-- A look at the next token. Where none comes, the short run goes on as if at the end. -/
theorem viable_peek_bind {f : Option Token → Parse β}
    (next : ∀ token, Viable more n outer (f (some token))) (ends : ∀ r, Ends (outer r) (f none)) :
    Viable more n outer (peek? >>= f) := by
  constructor
  intro c d r d' bound extended done
  rcases extended_cases extended with own | ⟨token, rest, own, others⟩
  · exact .inr (ends_peek_bind (ends r) c own)
  · rw [bind_run] at done ⊢
    simp only [peek?, own, others, List.head?_cons] at done ⊢
    exact (next token).ok bound extended done

theorem viable_nextIs_bind {kind : Token.Kind} {f : Bool → Parse β}
    (next : ∀ b, Viable more n outer (f b)) (stuck : Ends False (f false)) :
    Viable more n outer (nextIs kind >>= f) := by
  simp only [nextIs, bind_assoc, pure_bind]
  exact viable_peek_bind (fun _ => next _) fun _ => stuck.imp False.elim

/-- Something follows in the full run, and then in the short run too, or the operand is missing. -/
theorem viable_requireOperand (operator : Token) :
    Viable more n (fun _ => False) (requireOperand operator) := by
  unfold requireOperand
  refine viable_peek_bind (fun _ => viable_pure) ?_
  rintro _ ⟨previous, rest, finish⟩ rfl
  exact .fault trivial

/-- The place where something begins, of which the first token is still to come. -/
theorem viable_here_bind {f : Span → Parse β} (next : ∀ span, Viable more n outer (f span))
    (stuck : ∀ span, Ends False (f span)) : Viable more n outer (get >>= fun c => f c.here) := by
  constructor
  intro c d r d' bound extended done
  rcases extended_cases extended with own | ⟨token, rest, own, others⟩
  · exact .inr ((stuck c.here c own).imp False.elim)
  · have same : d.here = c.here := by rw [Cursor.here, Cursor.here, own, others]
    change f d.here d = _ at done
    rw [same] at done
    exact (next c.here).ok bound extended done

/-! Sequences. -/

section
variable {item : Parse α}

theorem ends_commaSeparated (steady : Steady 0 item) (stuck : Ends False item) :
    Ends False (commaSeparated item) := by
  rw [commaSeparated_eq steady]
  exact stuck.bind_stuck

/-- The induction is on the tokens that come: each round has read a comma. -/
theorem viable_commaSeparated (steady : Steady 0 item)
    (items : ∀ m ≤ n, Viable more m longer item) :
    Viable more n (fun _ => True) (commaSeparated item) := by
  induction n using Nat.strongRecOn with
  | ind n ih =>
  rw [commaSeparated_eq steady]
  refine (items n (Nat.le_refl n)).bind_open steady (fun first m le => ?_) fun first => ?_
  · refine viable_accept_bind (fun m' less => ?_) viable_pure fun _ _ _ _ => ends_pure trivial
    have rest := ih m' (by omega) fun l le' => items l (by omega)
    exact rest.bind_open (fun _ => agree_commaSeparated (steady _)) (fun _ _ _ => viable_pure)
      fun _ => ends_pure trivial
  · exact ends_accept_bind (ends_pure trivial)

theorem viable_listUntil (closing : Token.Kind) (steady : Steady 0 item) (stuck : Ends False item)
    (items : ∀ m ≤ n, Viable more m longer item) :
    Viable more n (fun _ => True) (listUntil closing item) := by
  unfold listUntil
  refine viable_nextIs_bind (fun empty => ?_) (ends_commaSeparated steady stuck)
  cases empty with
  | true => exact viable_pure
  | false => exact viable_commaSeparated steady items

theorem ends_sequenceUntil (stop : Token → Bool) (steady : Steady 1 item) :
    Ends True (sequenceUntil stop item) := by
  rw [sequenceUntil_eq stop steady]
  exact ends_peek_bind (ends_pure trivial)

/-- Each round has read an item. -/
theorem viable_sequenceUntil (stop : Token → Bool) (steady : Steady 1 item)
    (items : ∀ m ≤ n, Viable more m longer item) :
    Viable more n (fun _ => True) (sequenceUntil stop item) := by
  induction n using Nat.strongRecOn with
  | ind n ih =>
  rw [sequenceUntil_eq stop steady]
  refine viable_peek_bind (fun token => ?_) fun _ => ends_pure trivial
  dsimp only
  split
  · exact viable_pure
  · refine (items n (Nat.le_refl n)).bind_open steady (fun first m le => ?_) fun first => ?_
    · have rest := ih m (by omega) fun l le' => items l (by omega)
      exact rest.bind_open (fun _ => agree_sequenceUntil stop (steady _))
        (fun _ _ _ => viable_pure) fun _ => ends_pure trivial
    · exact (ends_sequenceUntil stop steady).bind fun _ => ends_pure trivial

end

end Parse

end Syntax

end Scriptlet
