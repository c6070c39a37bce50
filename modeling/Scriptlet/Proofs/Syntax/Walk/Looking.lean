import Scriptlet.Proofs.Syntax.Walk.Basic

/-!
# Looking up tokens

A walker stands where a cursor stands if its index divides the tokens before the first end marker as
the cursor does (`Stands`). What it finds out there by looking is what the cursor shows (`Tells`).
Every look-up finds a token, none of them behind the first end marker: in front of the next token
there is one or, at the beginning, the next one is looked up in its place.
-/
namespace Scriptlet

namespace Syntax

namespace Walk

variable {α β : Type}

/-- Tokens with an end marker among them, split at the first one. -/
structure Layout where
  front : List Token
  marker : Token
  after : List Token
  plain : ∀ token ∈ front, Cursor.isMarker token = false
  marks : Cursor.isMarker marker = true

namespace Layout

variable (t : Layout)

def tokens : List Token := t.front ++ t.marker :: t.after

/-- The token that a cursor stands in front of. -/
def next (c : Cursor) : Token := c.rest.head?.getD t.marker

end Layout

/-- Nobody goes or looks behind the first end marker, and what is read is at least one token. -/
def Event.Sound (marker : Nat) : Event → Prop
  | lookup current index => current ≤ marker ∧ index ≤ marker
  | reading start stop => start < stop ∧ stop ≤ marker

/-- A walk that has not come behind the first end marker. -/
structure Within (t : Layout) (w : Walker) : Prop where
  tokens : w.tokens = t.tokens
  inside : w.current ≤ t.front.length
  sound : ∀ event ∈ w.trace, event.Sound t.front.length

/-- A walker that stands where a cursor stands. -/
structure Stands (t : Layout) (w : Walker) (c : Cursor) : Prop extends Within t w where
  rest : c.rest = t.front.drop w.current
  previous : c.previous = (t.front.take w.current).getLast?
  finish : c.finish = t.marker.span

variable {t : Layout} {w : Walker} {c : Cursor} {token : Token} {rest : List Token}

theorem Within.record (within : Within t w) {event : Event} (sound : event.Sound t.front.length) :
    Within t (w.record event) where
  tokens := within.tokens
  inside := within.inside
  sound := by
    simp only [Walker.record, List.mem_append, List.mem_singleton]
    rintro e (old | rfl)
    · exact within.sound e old
    · exact sound

namespace Stands

theorem record (stands : Stands t w c) {event : Event} (sound : event.Sound t.front.length) :
    Stands t (w.record event) c :=
  { stands.toWithin.record sound with
    rest := stands.rest
    previous := stands.previous
    finish := stands.finish }

theorem length (stands : Stands t w c) : c.rest.length + w.current = t.front.length := by
  have := stands.inside
  rw [stands.rest, List.length_drop]
  omega

/-- The token at the index of the walker is the one in front of the cursor. -/
theorem getElem? (stands : Stands t w c) : t.tokens[w.current]? = some (t.next c) := by
  rw [Layout.next, stands.rest, List.head?_drop, Layout.tokens]
  rcases Nat.lt_or_eq_of_le stands.inside with before | same
  · simp [List.getElem?_append_left before, List.getElem?_eq_getElem before]
  · simp [same]

/-- The cursor stands at the end just if an end marker is in front of it. -/
theorem isMarker_next (stands : Stands t w c) :
    Cursor.isMarker (t.next c) = c.rest.isEmpty := by
  have plain : ∀ token ∈ c.rest, Cursor.isMarker token = false := by
    intro token member
    rw [stands.rest] at member
    exact t.plain token (List.mem_of_mem_drop member)
  rw [Layout.next]
  cases ahead : c.rest with
  | nil => simpa using t.marks
  | cons token rest => simpa using plain token (by simp [ahead])

theorem here (stands : Stands t w c) : c.here = (t.next c).span := by
  rw [Cursor.here, Layout.next, stands.finish]
  cases c.rest <;> rfl

theorem step (stands : Stands t w c) (here : c.rest = token :: rest) :
    Stands t { w with current := w.current + 1 } ⟨some token, rest, c.finish⟩ := by
  have length := stands.length
  have drop : t.front.drop w.current = token :: rest := stands.rest.symm.trans here
  have at_index : t.front[w.current]? = some token := by
    rw [← List.head?_drop, drop, List.head?_cons]
  rw [here, List.length_cons] at length
  refine ⟨⟨stands.tokens, ?_, stands.sound⟩, ?_, ?_, stands.finish⟩
  · change w.current + 1 ≤ _
    omega
  · change rest = t.front.drop (w.current + 1)
    rw [← List.drop_drop, drop, List.drop_one, List.tail_cons]
  · change some token = (t.front.take (w.current + 1)).getLast?
    rw [List.take_add_one, at_index]
    simp

end Stands

/-! What is found out by looking. -/

theorem bind_apply (p : Walk α) (next : α → Walk β) (w : Walker) :
    (p >>= next) w =
      match p w with
      | (.ok a, w') => next a w'
      | (.error h, w') => (.error h, w') := by
  change (ExceptT.bindCont next (p w).1 (p w).2) = _
  obtain ⟨result, w'⟩ := p w
  cases result <;> rfl

theorem get_apply (w : Walker) : (get : Walk Walker) w = (.ok w, w) := rfl

theorem set_apply (v w : Walker) : (set v : Walk PUnit) w = (.ok ⟨⟩, v) := rfl

/-- Where a walker stands where the cursor `c` stands, a walk finds out `a` and goes nowhere. -/
def Tells (t : Layout) (c : Cursor) (p : Walk α) (a : α) : Prop :=
  ∀ w, Stands t w c → ∃ w', p w = (.ok a, w') ∧ Stands t w' c

theorem tells_pure (a : α) : Tells t c (pure a) a := fun w stands => ⟨w, rfl, stands⟩

theorem Tells.bind {p : Walk α} {next : α → Walk β} {a : α} {b : β} (first : Tells t c p a)
    (second : Tells t c (next a) b) : Tells t c (p >>= next) b := by
  intro w stands
  obtain ⟨w', run, stands'⟩ := first w stands
  rw [bind_apply, run]
  exact second w' stands'

theorem Tells.map {p : Walk α} {a : α} (first : Tells t c p a) (f : α → β) :
    Tells t c (p >>= fun a => pure (f a)) (f a) :=
  first.bind (tells_pure (f a))

theorem lookup_apply (index : Nat) (w : Walker) :
    lookup index w =
      (match w.tokens[index]? with
        | some token => .ok token
        | none => .error (.outOfBounds index),
        w.record (.lookup w.current index)) := by
  rw [lookup, bind_apply, get_apply]
  dsimp only
  rw [bind_apply, set_apply]
  dsimp only
  cases w.tokens[index]? <;> rfl

theorem Stands.lookup (stands : Stands t w c) {index : Nat} (bound : index ≤ t.front.length)
    (found : t.tokens[index]? = some token) :
    ∃ w', lookup index w = (.ok token, w') ∧ Stands t w' c := by
  refine ⟨w.record (.lookup w.current index), ?_, stands.record ⟨stands.inside, bound⟩⟩
  rw [← stands.tokens] at found
  rw [lookup_apply, found]

theorem tells_peek : Tells t c peek (t.next c) :=
  fun _ stands => stands.lookup stands.inside stands.getElem?

theorem tells_peek_cons (ahead : c.rest = token :: rest) : Tells t c peek token := by
  have next : t.next c = token := by simp [Layout.next, ahead]
  exact next ▸ tells_peek

theorem tells_previous : Tells t c previous (c.previous.getD (t.next c)) := by
  intro w stands
  have bound : w.current - 1 ≤ t.front.length := Nat.le_trans (Nat.sub_le _ _) stands.inside
  apply stands.lookup bound
  rw [stands.previous, List.getLast?_take]
  by_cases start : w.current = 0
  · rw [if_pos start, Option.getD_none, start, Nat.zero_sub, ← start]
    exact stands.getElem?
  · have inside := stands.inside
    have before : w.current - 1 < t.front.length := by omega
    simp [Layout.tokens, List.getElem?_append_left before, start, before]

theorem tells_isAtEnd : Tells t c isAtEnd c.rest.isEmpty := by
  intro w stands
  rw [← stands.isMarker_next]
  exact tells_peek.map Cursor.isMarker w stands

theorem tells_check (kind : Token.Kind) :
    Tells t c (check kind) (c.rest.head?.any (·.kind = kind)) := by
  apply tells_isAtEnd.bind
  cases ahead : c.rest with
  | nil => exact tells_pure _
  | cons token rest => exact (tells_peek_cons ahead).map fun token => decide (token.kind = kind)

theorem tells_checkSymbol (symbols : List String) :
    Tells t c (checkSymbol symbols)
      (c.rest.head?.any fun token => token.kind = .arithmetic && symbols.contains token.text) := by
  apply (tells_check _).bind
  cases ahead : c.rest with
  | nil => exact tells_pure _
  | cons token rest =>
    rw [List.head?_cons, Option.any_some, Option.any_some]
    cases arithmetic : decide (token.kind = .arithmetic) with
    | false => exact tells_pure _
    | true =>
      rw [Bool.true_and]
      exact (tells_peek_cons ahead).map fun token => symbols.contains token.text

theorem tells_checkLevel (level : Level) :
    Tells t c (checkLevel level) (c.rest.head?.any level.continuedBy) := by
  cases level with
  | logical => exact tells_check _
  | comparison => exact tells_check _
  | additive =>
    have same : Level.additive.continuedBy =
        fun token => token.kind = .arithmetic && ["+", "-"].contains token.text := by
      funext token
      simp [Level.continuedBy]
    exact same ▸ tells_checkSymbol _
  | multiplicative =>
    have same : Level.multiplicative.continuedBy =
        fun token => token.kind = .arithmetic && ["*", "/", "%"].contains token.text := by
      funext token
      simp [Level.continuedBy, Bool.or_assoc]
    exact same ▸ tells_checkSymbol _

theorem tells_here : Tells t c (do return (← peek).span) c.here := by
  intro w stands
  exact stands.here ▸ tells_peek.map Token.span w stands

theorem tells_previousSpan :
    Tells t c previousSpan ((c.previous.map (·.span)).getD c.here) := by
  intro w stands
  have value : (c.previous.map (·.span)).getD c.here = (c.previous.getD (t.next c)).span := by
    rw [stands.here]
    cases c.previous <;> rfl
  exact value ▸ tells_previous.map Token.span w stands

theorem tells_missingSpan : Tells t c missingSpan c.missingSpan := by
  apply tells_isAtEnd.bind
  intro w stands
  -- There is a last token just if the walker has gone on, and then it is the one that is looked up.
  have begun : c.previous.isSome = decide (0 < w.current) := by
    have inside := stands.inside
    rw [stands.previous, Bool.eq_iff_iff, List.getLast?_isSome, decide_eq_true_eq, ne_eq,
      List.take_eq_nil_iff, not_or, Nat.pos_iff_ne_zero]
    exact ⟨And.left, fun begun => ⟨begun, fun nil => begun (by simpa [nil] using inside)⟩⟩
  change ∃ w', (if (c.rest.isEmpty && decide (0 < w.current)) = true then
    previous >>= fun token => pure (Span.single token.span.stop)
    else peek >>= fun token => pure token.span : Walk Span) w = _ ∧ _
  rw [← begun]
  cases ahead : c.rest with
  | cons token rest =>
    have value : c.missingSpan = c.here := by simp [Cursor.missingSpan, ahead]
    exact value ▸ tells_here w stands
  | nil =>
    cases last : c.previous with
    | none =>
      have value : c.missingSpan = c.here := by simp [Cursor.missingSpan, ahead, last]
      exact value ▸ tells_here w stands
    | some token =>
      have value : c.missingSpan = .single (c.previous.getD (t.next c)).span.stop := by
        simp [Cursor.missingSpan, ahead, last]
      exact value ▸ tells_previous.map (fun token => Span.single token.span.stop) w stands

theorem tells_describe : Tells t c describe (c.rest.head?.map (·.text)) := by
  intro w stands
  refine tells_peek.bind ?_ w stands
  have marker := stands.isMarker_next
  cases ahead : c.rest with
  | nil =>
    rw [marker, ahead]
    exact tells_pure _
  | cons token rest =>
    rw [marker, ahead, Layout.next, ahead]
    exact tells_pure (some token.text)

end Walk

end Syntax

end Scriptlet
