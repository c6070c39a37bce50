import Scriptlet.Proofs.Eval.Nodes
import Scriptlet.Proofs.Syntax.Soundness.Statement

/-!
# Spans along tokens

Tokens stand one behind the other, and so do the spans of whatever is read from them in order. A
list of spans that are `Laid` along tokens can be put together from the spans of the pieces, and the
spans of a node and of its parts are made of such lists. The judgement on parsers that is needed is
`Lays`: what was read, between two cursors (`Read`), and how the result lies in it.
-/
namespace Scriptlet

namespace Span

def Nonempty (span : Span) : Prop := span.start < span.stop

def Inside (inner outer : Span) : Prop := outer.start ≤ inner.start ∧ inner.stop ≤ outer.stop

def Before (a b : Span) : Prop := a.stop ≤ b.start

/-- Parts of a whole: they are not empty, inside of it and one behind the other. -/
structure Nests (outer : Span) (inner : List Span) : Prop where
  nonempty : ∀ s ∈ inner, s.Nonempty
  inside : ∀ s ∈ inner, s.Inside outer
  ordered : inner.Pairwise Before

theorem Nests.sublist {outer : Span} {inner fewer : List Span} (h : outer.Nests inner)
    (sub : fewer.Sublist inner) : outer.Nests fewer :=
  ⟨fun s member => h.nonempty s (sub.subset member),
    fun s member => h.inside s (sub.subset member), h.ordered.sublist sub⟩

theorem Nests.of_mem {outer s : Span} {inner : List Span} (h : outer.Nests inner)
    (member : s ∈ inner) : s.Nonempty ∧ s.Inside outer :=
  ⟨h.nonempty s member, h.inside s member⟩

theorem Inside.trans {a b c : Span} (first : a.Inside b) (second : b.Inside c) : a.Inside c :=
  ⟨Nat.le_trans second.1 first.1, Nat.le_trans first.2 second.2⟩

theorem nests_nil (outer : Span) : outer.Nests [] := ⟨nofun, nofun, .nil⟩

end Span

namespace Token

/-- Tokens as they stand in a text: none is empty, and each is behind those before it. -/
structure Ordered (tokens : List Token) : Prop where
  nonempty : ∀ token ∈ tokens, token.span.Nonempty
  ordered : tokens.Pairwise fun earlier later => earlier.span.Before later.span

variable {tokens left right : List Token} {token : Token}

theorem ordered_append : Ordered (left ++ right) ↔ Ordered left ∧ Ordered right ∧
    ∀ a ∈ left, ∀ b ∈ right, a.span.Before b.span := by
  constructor
  · rintro ⟨nonempty, ordered⟩
    obtain ⟨first, second, between⟩ := List.pairwise_append.mp ordered
    exact ⟨⟨fun t member => nonempty t (List.mem_append_left _ member), first⟩,
      ⟨fun t member => nonempty t (List.mem_append_right _ member), second⟩, between⟩
  · rintro ⟨first, second, between⟩
    refine ⟨?_, List.pairwise_append.mpr ⟨first.ordered, second.ordered, between⟩⟩
    intro t member
    rcases List.mem_append.mp member with one | other
    · exact first.nonempty t one
    · exact second.nonempty t other

theorem Ordered.front (h : Ordered (left ++ right)) : Ordered left := (ordered_append.mp h).1

theorem Ordered.back (h : Ordered (left ++ right)) : Ordered right := (ordered_append.mp h).2.1

/-- The last of tokens in order. -/
structure Ahead (tokens rest : List Token) : Prop where
  ordered : Ordered tokens
  suffix : rest <:+ tokens

theorem Ahead.back (h : Ahead tokens (left ++ right)) : Ahead tokens right :=
  ⟨h.ordered, (List.suffix_append left right).trans h.suffix⟩

theorem Ahead.front (h : Ahead tokens (left ++ right)) : Ordered left := by
  obtain ⟨before, rfl⟩ := h.suffix
  exact h.ordered.back.front

/-- The first of the tokens begins before all of them, and the last one ends behind them. -/
theorem Ordered.bounds (h : Ordered tokens) {first last : Token} (head : tokens.head? = some first)
    (final : tokens.getLast? = some last) (member : token ∈ tokens) :
    token.span.Inside ⟨first.span.start, last.span.stop⟩ := by
  constructor
  · obtain ⟨rest, rfl⟩ := List.head?_eq_some_iff.mp head
    rcases List.mem_cons.mp member with rfl | later
    · exact Nat.le_refl _
    · have before := List.rel_of_pairwise_cons h.ordered later
      exact Nat.le_trans (Nat.le_of_lt (h.nonempty first List.mem_cons_self)) before
  · obtain ⟨front, rfl⟩ := List.getLast?_eq_some_iff.mp final
    rcases List.mem_append.mp member with earlier | same
    · have before := (ordered_append.mp h).2.2 token earlier last List.mem_cons_self
      exact Nat.le_trans before
        (Nat.le_of_lt (h.nonempty last (List.mem_append_right _ List.mem_cons_self)))
    · obtain rfl := List.mem_singleton.mp same
      exact Nat.le_refl _

/-- The span from the first character of some tokens to the last one. -/
def Extent (tokens : List Token) (span : Span) : Prop :=
  ∃ first last, tokens.head? = some first ∧ tokens.getLast? = some last ∧
    span = ⟨first.span.start, last.span.stop⟩

/-- Spans lie along tokens in order: each runs from the first character of a token to the last
character of a token, and is not empty. -/
structure Laid (tokens : List Token) (spans : List Span) : Prop where
  starts : ∀ s ∈ spans, ∃ first ∈ tokens, s.start = first.span.start
  stops : ∀ s ∈ spans, ∃ last ∈ tokens, s.stop = last.span.stop
  nonempty : ∀ s ∈ spans, s.Nonempty
  ordered : spans.Pairwise Span.Before

variable {spans others middle : List Span} {s t span : Span}

theorem laid_nil : Laid tokens [] := ⟨nofun, nofun, nofun, .nil⟩

theorem laid_token (nonempty : token.span.Nonempty) : Laid [token] [token.span] := by
  refine ⟨?_, ?_, ?_, List.pairwise_singleton _ _⟩ <;> rintro _ (_ | ⟨_, ⟨⟩⟩)
  · exact ⟨token, List.mem_cons_self, rfl⟩
  · exact ⟨token, List.mem_cons_self, rfl⟩
  · exact nonempty

/-- More tokens do no harm. -/
theorem Laid.mono {more : List Token} (h : Laid tokens spans) (sub : tokens ⊆ more) :
    Laid more spans := by
  refine ⟨fun s member => ?_, fun s member => ?_, h.nonempty, h.ordered⟩
  · obtain ⟨first, inside, start⟩ := h.starts s member
    exact ⟨first, sub inside, start⟩
  · obtain ⟨last, inside, stop⟩ := h.stops s member
    exact ⟨last, sub inside, stop⟩

theorem Laid.among (h : Laid tokens spans) (front back : List Token) :
    Laid (front ++ (tokens ++ back)) spans :=
  (h.mono (List.subset_append_left tokens back)).mono (List.subset_append_right front _)

theorem Laid.append (first : Laid left spans) (second : Laid right others)
    (ordered : Ordered (left ++ right)) : Laid (left ++ right) (spans ++ others) := by
  have first' := first.mono (List.subset_append_left left right)
  have second' := second.mono (List.subset_append_right left right)
  refine ⟨?_, ?_, ?_, List.pairwise_append.mpr ⟨first.ordered, second.ordered, ?_⟩⟩
  · exact fun s => List.forall_mem_append.mpr ⟨first'.starts, second'.starts⟩ s
  · exact fun s => List.forall_mem_append.mpr ⟨first'.stops, second'.stops⟩ s
  · exact fun s => List.forall_mem_append.mpr ⟨first.nonempty, second.nonempty⟩ s
  · intro s one t other
    obtain ⟨last, inside, stop⟩ := first.stops s one
    obtain ⟨begin_, inside', start⟩ := second.starts t other
    rw [Span.Before, stop, start]
    exact (ordered_append.mp ordered).2.2 last inside begin_ inside'

theorem Laid.cons_token (h : Laid tokens spans) (ordered : Ordered (token :: tokens)) :
    Laid (token :: tokens) (token.span :: spans) := by
  have split : Ordered ([token] ++ tokens) := ordered
  exact (laid_token (ordered.nonempty token List.mem_cons_self)).append h split

theorem Laid.concat_token (h : Laid tokens spans) (ordered : Ordered (tokens ++ [token])) :
    Laid (tokens ++ [token]) (spans ++ [token.span]) :=
  h.append (laid_token (ordered.back.nonempty token List.mem_cons_self)) ordered

/-- The first and the last of some spans cover those between. -/
theorem Laid.nests_cover (h : Laid tokens (s :: (middle ++ [t]))) :
    (s.cover t).Nests (s :: (middle ++ [t])) := by
  refine ⟨h.nonempty, ?_, h.ordered⟩
  intro between member
  have first : s.start ≤ between.start := by
    rcases List.mem_cons.mp member with rfl | later
    · exact Nat.le_refl _
    · exact Nat.le_trans (Nat.le_of_lt (h.nonempty s List.mem_cons_self))
        (List.rel_of_pairwise_cons h.ordered later)
  have last : between.stop ≤ t.stop := by
    have split : s :: (middle ++ [t]) = (s :: middle) ++ [t] := rfl
    rw [split] at member h
    rcases List.mem_append.mp member with earlier | same
    · have before := (List.pairwise_append.mp h.ordered).2.2 between earlier t List.mem_cons_self
      exact Nat.le_trans before
        (Nat.le_of_lt (h.nonempty t (List.mem_append_right _ List.mem_cons_self)))
    · obtain rfl := List.mem_singleton.mp same
      exact Nat.le_refl _
  exact ⟨Nat.le_trans (Nat.min_le_left _ _) first, Nat.le_trans last (Nat.le_max_right _ _)⟩

theorem Laid.cover (h : Laid tokens (s :: (middle ++ [t]))) : Laid tokens [s.cover t] := by
  have last : t ∈ s :: (middle ++ [t]) := by simp
  have before : s.stop ≤ t.start := List.rel_of_pairwise_cons h.ordered (by simp)
  have full := h.nonempty s List.mem_cons_self
  have full' := h.nonempty t last
  unfold Span.Nonempty at full full'
  have joined : s.cover t = ⟨s.start, t.stop⟩ := by
    simp only [Span.cover, Span.mk.injEq]
    omega
  rw [joined]
  refine ⟨?_, ?_, ?_, List.pairwise_singleton _ _⟩ <;> rintro _ (_ | ⟨_, ⟨⟩⟩)
  · exact h.starts s List.mem_cons_self
  · exact h.stops t last
  · exact Nat.lt_of_lt_of_le full (Nat.le_trans before (Nat.le_of_lt full'))

/-- Spans along tokens lie between what is in front of these tokens and what is behind. -/
theorem Laid.nests_between (h : Laid tokens spans) {front back : Nat}
    (behind : ∀ token ∈ tokens, front ≤ token.span.start)
    (before : ∀ token ∈ tokens, token.span.stop ≤ back) : Span.Nests ⟨front, back⟩ spans := by
  refine ⟨h.nonempty, ?_, h.ordered⟩
  intro s member
  obtain ⟨first, inside, start⟩ := h.starts s member
  obtain ⟨last, inside', stop⟩ := h.stops s member
  rw [Span.Inside, start, stop]
  exact ⟨behind first inside, before last inside'⟩

theorem Laid.nests_extent (h : Laid tokens spans) (ordered : Ordered tokens)
    (extent : Extent tokens span) : span.Nests spans := by
  obtain ⟨first, last, head, final, rfl⟩ := extent
  exact h.nests_between (fun token member => (ordered.bounds head final member).1)
    fun token member => (ordered.bounds head final member).2

theorem Extent.laid (extent : Extent tokens span) (ordered : Ordered tokens) :
    Laid tokens [span] := by
  obtain ⟨first, last, head, final, rfl⟩ := extent
  have begins := List.mem_of_mem_head? head
  have ends := List.mem_of_getLast? final
  refine ⟨?_, ?_, ?_, List.pairwise_singleton _ _⟩ <;> rintro _ (_ | ⟨_, ⟨⟩⟩)
  · exact ⟨first, begins, rfl⟩
  · exact ⟨last, ends, rfl⟩
  · exact Nat.lt_of_lt_of_le (ordered.nonempty first begins) (ordered.bounds head final begins).2

/-- A span that was made of the first and the last token. -/
theorem extent_cover {first last : Token} (ordered : Ordered tokens)
    (head : tokens.head? = some first) (final : tokens.getLast? = some last) :
    Extent tokens (first.span.cover last.span) := by
  refine ⟨first, last, head, final, ?_⟩
  have begins := ordered.bounds head final (List.mem_of_mem_head? head)
  have ends := ordered.bounds head final (List.mem_of_getLast? final)
  simp only [Span.cover, Span.mk.injEq]
  exact ⟨Nat.min_eq_left ends.1, Nat.max_eq_right begins.2⟩

end Token

namespace Syntax

namespace Parse

open Token (Ahead Ordered)

variable {α : Type} {c d e : Cursor} {tokens own more : List Token}

/-- The tokens between two cursors. -/
structure Read (c d : Cursor) (own : List Token) : Prop where
  rest : c.rest = own ++ d.rest
  previous : d.previous = own.getLast?.or c.previous

theorem Read.nil : Read c c [] := ⟨rfl, rfl⟩

theorem Read.trans (first : Read c d own) (second : Read d e more) : Read c e (own ++ more) := by
  refine ⟨?_, ?_⟩
  · rw [first.rest, second.rest, List.append_assoc]
  · rw [second.previous, first.previous, List.getLast?_append, Option.or_assoc]

theorem Read.ahead (read : Read c d own) (ahead : Ahead tokens c.rest) : Ahead tokens d.rest := by
  rw [read.rest] at ahead
  exact ahead.back

theorem Read.own_ordered (read : Read c d own) (ahead : Ahead tokens c.rest) : Ordered own := by
  rw [read.rest] at ahead
  exact ahead.front

/-- What was read before stays in front. -/
theorem Read.after (read : Read c d own) {seen : List Token}
    (ahead : Ahead tokens (seen ++ c.rest)) : Ahead tokens ((seen ++ own) ++ d.rest) := by
  rwa [List.append_assoc, ← read.rest]

/-- How what a parser gives lies in the tokens that it reads, wherever it stands among tokens in
order. -/
def Lays (tokens : List Token) (p : Parse α) (laid : α → List Token → Prop) : Prop :=
  ∀ c a d, p c = .ok (a, d) → Ahead tokens c.rest → ∃ own, Read c d own ∧ laid a own

/-! The parsers of single tokens. -/

theorem take_read {wanted : Token → Bool} {token : Token}
    (h : take? wanted c = .ok (some token, d)) : wanted token = true ∧ Read c d [token] := by
  unfold take? at h
  split at h
  · next next_token rest spelled =>
    split at h
    · next fits =>
      cases h
      exact ⟨fits, spelled, rfl⟩
    · cases h
  · cases h

theorem accept_read {kind : Token.Kind} (h : accept kind c = .ok (true, d)) :
    ∃ token, token.kind = kind ∧ Read c d [token] := by
  obtain ⟨taken, c', first, h⟩ := bind_ok h
  obtain ⟨found, rfl⟩ := pure_ok h
  cases taken with
  | none => cases found
  | some token =>
    obtain ⟨fits, read⟩ := take_read first
    exact ⟨token, of_decide_eq_true fits, read⟩

theorem expect_read {expected : Expected} {token : Token}
    (h : expect expected c = .ok (token, d)) : token.kind = expected.kind ∧ Read c d [token] := by
  obtain ⟨taken, c', first, h⟩ := bind_ok h
  cases taken with
  | none =>
    obtain ⟨_, _, _, h⟩ := bind_ok h
    exact absurd h fail_ne_ok
  | some found =>
    obtain ⟨rfl, rfl⟩ := pure_ok h
    obtain ⟨fits, read⟩ := take_read first
    exact ⟨of_decide_eq_true fits, read⟩

end Parse

end Syntax

end Scriptlet
