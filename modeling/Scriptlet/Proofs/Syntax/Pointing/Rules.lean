import Scriptlet.Proofs.Syntax.Agreement

/-!
# Where parsers point

A parser takes every span that it gives, also that of a fault, from the tokens around its cursor, or
covers two such spans. Only where a token is missing at the end of the input does it point further:
behind the last token. The judgement `Points` says so for any spans that covering does not lead out
of, and that tokens are only read from the front of those to come.
-/
namespace Scriptlet

namespace Syntax

namespace Parse

variable {α β : Type} {edge : Span → Prop} {last : Option Token} {good : α → Prop}
  {later : β → Prop} {c d : Cursor}

/-- The tokens around a cursor have spans of some class, and so does the end of the input. -/
structure Grounded (edge : Span → Prop) (last : Option Token) (c : Cursor) : Prop where
  rest : ∀ token ∈ c.rest, edge token.span
  previous : ∀ token ∈ c.previous, edge token.span
  finish : edge c.finish
  /-- The last of all tokens, be it read or to come. -/
  last_eq : (c.previous.toList ++ c.rest).getLast? = last

/-- What a fault may be about: a span of the class, or the character behind the last token. -/
inductive Pointed (edge : Span → Prop) (last : Option Token) : Span → Prop
  | edge {span : Span} (at_edge : edge span) : Pointed edge last span
  | behind {token : Token} (at_last : last = some token) :
      Pointed edge last (.single token.span.stop)

/-- How a run of a parser from a cursor ends. -/
inductive PointsFrom (edge : Span → Prop) (last : Option Token) (good : α → Prop) (c : Cursor) :
    Except (Located Fault) (α × Cursor) → Prop
  | result {a : α} {d : Cursor} (is_good : good a) (grounded : Grounded edge last d)
      (left : d.rest <:+ c.rest) : PointsFrom edge last good c (.ok (a, d))
  | fault {e : Located Fault} (pointed : Pointed edge last e.span) :
      PointsFrom edge last good c (.error e)

/-- Among tokens with spans of a class, a parser gives something good, or points at such a span or
behind the last token. -/
def Points (edge : Span → Prop) (last : Option Token) (good : α → Prop) (p : Parse α) : Prop :=
  ∀ c, Grounded edge last c → PointsFrom edge last good c (p c)

namespace Grounded

theorem here (grounded : Grounded edge last c) : edge c.here := by
  unfold Cursor.here
  split
  · next token rest spelled => exact grounded.rest token (spelled ▸ List.mem_cons_self)
  · exact grounded.finish

theorem missing (grounded : Grounded edge last c) : Pointed edge last c.missingSpan := by
  unfold Cursor.missingSpan
  split
  · next token nothing seen =>
    refine .behind ?_
    have last_eq := grounded.last_eq
    rw [nothing, seen, List.append_nil] at last_eq
    exact last_eq.symm
  · exact .edge grounded.here

theorem recent (grounded : Grounded edge last c) :
    edge ((c.previous.map (·.span)).getD c.here) := by
  cases seen : c.previous with
  | none => exact grounded.here
  | some token => exact grounded.previous token seen

theorem step {previous : Option Token} {token : Token} {rest : List Token} {finish : Span}
    (grounded : Grounded edge last ⟨previous, token :: rest, finish⟩) :
    Grounded edge last ⟨some token, rest, finish⟩ where
  rest := fun other ahead => grounded.rest other (List.mem_cons_of_mem _ ahead)
  previous := by
    rintro _ ⟨⟩
    exact grounded.rest token List.mem_cons_self
  finish := grounded.finish
  last_eq := by
    rw [← grounded.last_eq]
    simp [List.getLast?_append, List.getLast?_cons]

end Grounded

theorem PointsFrom.after {read : Except (Located Fault) (α × Cursor)}
    (h : PointsFrom edge last good d read) (left : d.rest <:+ c.rest) :
    PointsFrom edge last good c read := by
  cases h with
  | result is_good grounded left' => exact .result is_good grounded (left'.trans left)
  | fault pointed => exact .fault pointed

theorem points_pure {a : α} (is_good : good a) : Points edge last good (pure a) :=
  fun _ grounded => .result is_good grounded List.suffix_rfl

theorem points_fail {cause : Fault} {span : Span} (pointed : Pointed edge last span) :
    Points edge last good (fail cause span) := fun _ _ => .fault pointed

theorem points_fail_bind {cause : Fault} {span : Span} (pointed : Pointed edge last span)
    {next : α → Parse β} : Points edge last later (fail cause span >>= next) :=
  fun _ _ => .fault pointed

theorem Points.bind {p : Parse α} {next : α → Parse β} (h : Points edge last good p)
    (rest : ∀ a, good a → Points edge last later (next a)) :
    Points edge last later (p >>= next) := by
  intro c grounded
  have first := h c grounded
  rw [bind_run]
  cases run : p c with
  | error e =>
    rw [run] at first
    cases first with
    | fault pointed => exact .fault pointed
  | ok result =>
    rw [run] at first
    cases first with
    | result is_good grounded' left => exact (rest _ is_good _ grounded').after left

/-! The parsers of single tokens. -/

theorem points_get : Points edge last (Grounded edge last) (get : Parse Cursor) :=
  fun _ grounded => .result grounded grounded List.suffix_rfl

theorem points_peek : Points edge last (fun _ => True) peek? :=
  fun _ grounded => .result trivial grounded List.suffix_rfl

theorem points_take (wanted : Token → Bool) :
    Points edge last (fun taken => ∀ token ∈ taken, edge token.span) (take? wanted) := by
  rintro ⟨previous, rest, finish⟩ grounded
  cases rest with
  | nil => exact .result nofun grounded List.suffix_rfl
  | cons token rest =>
    simp only [take?]
    split
    · refine .result ?_ grounded.step (List.suffix_cons token rest)
      rintro _ ⟨⟩
      exact grounded.rest token List.mem_cons_self
    · exact .result nofun grounded List.suffix_rfl

theorem points_accept (kind : Token.Kind) : Points edge last (fun _ => True) (accept kind) :=
  (points_take _).bind fun _ _ => points_pure trivial

theorem points_nextIs (kind : Token.Kind) : Points edge last (fun _ => True) (nextIs kind) :=
  points_peek.bind fun _ _ => points_pure trivial

theorem points_lastSpan : Points edge last edge lastSpan :=
  points_get.bind fun _ grounded => points_pure grounded.recent

theorem points_expect (expected : Expected) :
    Points edge last (fun token => edge token.span) (expect expected) := by
  apply (points_take _).bind
  intro taken at_edge
  cases taken with
  | some token => exact points_pure (at_edge token rfl)
  | none => exact points_get.bind fun _ grounded => points_fail grounded.missing

/-! Parsers that call themselves. -/

theorem points_fix {body : (α → Parse β) → α → Parse β}
    (step : ∀ f : α → Parse β, (∀ a, good a → Points edge last later (f a)) →
      ∀ a, good a → Points edge last later (body f a))
    {a : α} (is_good : good a) : Points edge last later (fix body a) := by
  have rounds : ∀ n a, good a → Points edge last later (unroll body n a) := by
    intro n
    induction n with
    | zero => exact fun a _ => points_get.bind fun _ grounded => points_fail (.edge grounded.here)
    | succ n ih => exact step _ ih
  exact fun c grounded => rounds _ a is_good c grounded

/-- A parser without an argument calls itself in one way only. -/
theorem points_fix_unit {body : (Unit → Parse β) → Unit → Parse β}
    (step : ∀ f : Unit → Parse β, Points edge last later (f ()) →
      Points edge last later (body f ())) :
    Points edge last later (fix body ()) := by
  let anyway : Unit → Prop := fun _ => True
  have holds : anyway () := trivial
  exact points_fix (fun f calls _ _ => step f (calls () trivial)) holds

variable {item : Parse α}

theorem points_commaSeparated (items : Points edge last good item) :
    Points edge last (fun _ => True) (commaSeparated item) := by
  apply points_fix_unit
  intro again call
  apply items.bind
  intro first _
  apply (points_accept _).bind
  intro more _
  split
  · exact call.bind fun _ _ => points_pure trivial
  · exact points_pure trivial

theorem points_listUntil (closing : Token.Kind) (items : Points edge last good item) :
    Points edge last (fun _ => True) (listUntil closing item) := by
  apply (points_nextIs closing).bind
  intro none_ _
  split
  · exact points_pure trivial
  · exact points_commaSeparated items

theorem points_sequenceUntil (stop : Token → Bool) (items : Points edge last good item) :
    Points edge last (fun _ => True) (sequenceUntil stop item) := by
  apply points_fix_unit
  intro again call
  apply points_peek.bind
  intro next _
  cases next with
  | none => exact points_pure trivial
  | some token =>
    dsimp only
    split
    · exact points_pure trivial
    · apply items.bind
      intro first _
      exact call.bind fun _ _ => points_pure trivial

end Parse

end Syntax

end Scriptlet
