import Scriptlet.Proofs.Syntax.Agreement

/-!
# Tokens that a parser can use

A parser relies on the texts of tokens: that of an operator names one, that of a number denotes one.
Where all tokens to come keep what is relied on, no parser fails for such a reason, and what it gives
is made of such tokens alone (`Ensures`). Neither the count of rounds nor the places of tokens matter
for this, so that the rule for a parser that calls itself is a plain induction on the rounds.
-/
namespace Scriptlet

namespace Syntax

/-- A fault of the sequence of tokens. The others are about the text of one token, which names no
operator or denotes no number. -/
def Fault.OfSequence : Fault → Prop
  | .unknownOperator _ | .invalidNumber _ => False
  | _ => True

namespace Parse

variable {α β : Type} {own : Token → Prop} {good : α → Prop} {later : β → Prop} {c : Cursor}

/-- How a run of a parser ends on tokens of which all have a property. -/
inductive Ensured (own : Token → Prop) (good : α → Prop) :
    Except (Located Fault) (α × Cursor) → Prop
  | result {a : α} {d : Cursor} (is_good : good a) (left : ∀ token ∈ d.rest, own token) :
      Ensured own good (.ok (a, d))
  | fault {e : Located Fault} (of_sequence : e.cause.OfSequence) : Ensured own good (.error e)

/-- On tokens of which all have a property, a parser gives something good, or its fault is one of the
sequence. -/
def Ensures (own : Token → Prop) (good : α → Prop) (p : Parse α) : Prop :=
  ∀ c : Cursor, (∀ token ∈ c.rest, own token) → Ensured own good (p c)

theorem ensures_pure {a : α} (is_good : good a) : Ensures own good (pure a) :=
  fun _ all => .result is_good all

theorem ensures_fail (cause : Fault) (span : Span) (of_sequence : cause.OfSequence) :
    Ensures own good (fail cause span) := fun _ _ => .fault of_sequence

theorem ensures_fail_bind (cause : Fault) (span : Span) (of_sequence : cause.OfSequence)
    (next : α → Parse β) : Ensures own later (fail cause span >>= next) :=
  fun _ _ => .fault of_sequence

theorem Ensures.bind {p : Parse α} {next : α → Parse β} (h : Ensures own good p)
    (rest : ∀ a, good a → Ensures own later (next a)) : Ensures own later (p >>= next) := by
  intro c all
  have first := h c all
  rw [bind_run]
  cases run : p c with
  | error e =>
    rw [run] at first
    cases first with
    | fault of_sequence => exact .fault of_sequence
  | ok result =>
    rw [run] at first
    cases first with
    | result is_good left => exact rest _ is_good _ left

/-! The parsers of single tokens. -/

theorem ensures_get : Ensures own (fun _ => True) (get : Parse Cursor) :=
  fun _ all => .result trivial all

theorem ensures_peek : Ensures own (fun _ => True) peek? := fun _ all => .result trivial all

theorem ensures_take (wanted : Token → Bool) :
    Ensures own (fun taken => ∀ token, taken = some token → own token ∧ wanted token = true)
      (take? wanted) := by
  rintro ⟨previous, rest, finish⟩ all
  cases rest with
  | nil => exact .result nofun all
  | cons token rest =>
    rw [List.forall_mem_cons] at all
    simp only [take?]
    split
    · next fits =>
      refine .result ?_ all.2
      rintro _ ⟨⟩
      exact ⟨all.1, fits⟩
    · exact .result nofun (List.forall_mem_cons.mpr all)

theorem ensures_accept (kind : Token.Kind) : Ensures own (fun _ => True) (accept kind) :=
  (ensures_take _).bind fun _ _ => ensures_pure trivial

theorem ensures_nextIs (kind : Token.Kind) : Ensures own (fun _ => True) (nextIs kind) :=
  ensures_peek.bind fun _ _ => ensures_pure trivial

theorem ensures_lastSpan : Ensures own (fun _ => True) lastSpan :=
  ensures_get.bind fun _ _ => ensures_pure trivial

theorem ensures_expect (expected : Expected) : Ensures own (fun _ => True) (expect expected) := by
  apply (ensures_take _).bind
  intro taken _
  cases taken with
  | some token => exact ensures_pure trivial
  | none => exact ensures_get.bind fun _ _ => ensures_fail _ _ trivial

/-! Parsers that call themselves. -/

theorem ensures_fix {body : (α → Parse β) → α → Parse β}
    (step : ∀ f : α → Parse β, (∀ a, good a → Ensures own later (f a)) →
      ∀ a, good a → Ensures own later (body f a))
    {a : α} (is_good : good a) : Ensures own later (fix body a) := by
  have rounds : ∀ n a, good a → Ensures own later (unroll body n a) := by
    intro n
    induction n with
    | zero => exact fun a _ => ensures_get.bind fun _ _ => ensures_fail _ _ trivial
    | succ n ih => exact step _ ih
  exact fun c all => rounds _ a is_good c all

/-- A parser without an argument calls itself in one way only. -/
theorem ensures_fix_unit {body : (Unit → Parse β) → Unit → Parse β}
    (step : ∀ f : Unit → Parse β, Ensures own later (f ()) → Ensures own later (body f ())) :
    Ensures own later (fix body ()) := by
  let anyway : Unit → Prop := fun _ => True
  have holds : anyway () := trivial
  exact ensures_fix (fun f calls _ _ => step f (calls () trivial)) holds

variable {item : Parse α}

theorem ensures_commaSeparated (items : Ensures own good item) :
    Ensures own (fun list => ∀ a ∈ list, good a) (commaSeparated item) := by
  apply ensures_fix_unit
  intro again call
  apply items.bind
  intro first is_good
  apply (ensures_accept _).bind
  intro more _
  split
  · apply call.bind
    intro others all
    exact ensures_pure (List.forall_mem_cons.mpr ⟨is_good, all⟩)
  · exact ensures_pure (List.forall_mem_singleton.mpr is_good)

theorem ensures_listUntil (closing : Token.Kind) (items : Ensures own good item) :
    Ensures own (fun list => ∀ a ∈ list, good a) (listUntil closing item) := by
  apply (ensures_nextIs closing).bind
  intro none_ _
  split
  · exact ensures_pure nofun
  · exact ensures_commaSeparated items

theorem ensures_sequenceUntil (stop : Token → Bool) (items : Ensures own good item) :
    Ensures own (fun list => ∀ a ∈ list, good a) (sequenceUntil stop item) := by
  apply ensures_fix_unit
  intro again call
  apply ensures_peek.bind
  intro next _
  cases next with
  | none => exact ensures_pure nofun
  | some token =>
    dsimp only
    split
    · exact ensures_pure nofun
    · apply items.bind
      intro first is_good
      apply call.bind
      intro others all
      exact ensures_pure (List.forall_mem_cons.mpr ⟨is_good, all⟩)

end Parse

end Syntax

end Scriptlet
