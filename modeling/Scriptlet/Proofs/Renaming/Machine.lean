import Scriptlet.Proofs.Renaming.Store

/-!
# Machines up to renaming

Related machines have related scopes and as much room for output; what they printed before is left
open. Two runs from related machines end alike when they print the same text and end with related
results on machines that are related again, by a renaming that says more.
-/
namespace Scriptlet

namespace Renaming

/-- Identities that are paired off were given out. -/
structure Relates (ρ : Renaming) (m n : Machine) : Prop where
  store : ρ.RelatesStore m.store n.store
  given : ∀ {i j}, ρ.identities.Pairs i j → i < m.nextIdentity ∧ j < n.nextIdentity
  room_eq : m.sink.room = n.sink.room

/-- The renaming with one more pair of identities. -/
def withIdentity (ρ : Renaming) (i j : Identity)
    (free : ∀ k l, ρ.identities.Pairs k l → k ≠ i ∧ l ≠ j) : Renaming :=
  ⟨ρ.scopes, ρ.identities.insert i j free⟩

variable {ρ : Renaming} {m n : Machine}

theorem le_withIdentity {i j : Identity}
    {free : ∀ k l, ρ.identities.Pairs k l → k ≠ i ∧ l ≠ j} : ρ ≤ ρ.withIdentity i j free :=
  ⟨fun _ _ => id, fun _ _ => .inl⟩

/-- The next identities have no partners yet. -/
theorem Relates.free (h : ρ.Relates m n) (k l : Identity) (pair : ρ.identities.Pairs k l) :
    k ≠ m.nextIdentity ∧ l ≠ n.nextIdentity :=
  ⟨Nat.ne_of_lt (h.given pair).1, Nat.ne_of_lt (h.given pair).2⟩

/-- Giving out an identity on both sides. -/
theorem Relates.newIdentity (h : ρ.Relates m n) :
    (ρ.withIdentity m.nextIdentity n.nextIdentity h.free).Relates m.newIdentity.2
      n.newIdentity.2 where
  store := ⟨h.store.made, fun pair => (h.store.scope pair).mono le_withIdentity,
    h.store.older_left, h.store.older_right⟩
  given := by
    rintro i j (pair | ⟨rfl, rfl⟩)
    · obtain ⟨left, right⟩ := h.given pair
      exact ⟨Nat.lt_succ_of_lt left, Nat.lt_succ_of_lt right⟩
    · exact ⟨Nat.lt_succ_self _, Nat.lt_succ_self _⟩
  room_eq := h.room_eq

theorem relates_empty (room_eq : m.sink.room = n.sink.room) : empty.Relates m n :=
  ⟨⟨nofun, nofun, nofun, nofun⟩, nofun, room_eq⟩

/-- Global scopes bind related values: the same words, and a `print` each. -/
theorem relatesScope_global {i j : Identity} (pair : ρ.identities.Pairs i j) :
    ρ.RelatesScope ⟨Machine.globalBindings i, none⟩ ⟨Machine.globalBindings j, none⟩ where
  parent := .none
  bindings name := by
    simp only [Scope.find?, Machine.globalBindings, List.lookup_cons, List.lookup_nil]
    cases name == "true" with
    | true => exact .some ⟨rfl, .boolean true⟩
    | false =>
      cases name == "false" with
      | true => exact .some ⟨rfl, .boolean false⟩
      | false =>
        cases name == "null" with
        | true => exact .some ⟨rfl, .null⟩
        | false =>
          cases name == Eval.Native.printName with
          | true => exact .some ⟨rfl, .print pair⟩
          | false => exact .none

/-- New global scopes of any two machines can be paired off. -/
theorem exists_relates_newGlobalScope (room_eq : m.sink.room = n.sink.room) :
    ∃ ρ : Renaming, ρ.Relates m.newGlobalScope.2 n.newGlobalScope.2 ∧
      ρ.scopes.Pairs m.newGlobalScope.1 n.newGlobalScope.1 := by
  have machines := (relates_empty room_eq).newIdentity
  have made := machines.store.create .none
  let ρ := (empty.withIdentity _ _ (relates_empty room_eq).free).withScope _ _ machines.store.free
  have pair : ρ.scopes.Pairs m.newGlobalScope.1 n.newGlobalScope.1 := .inr ⟨rfl, rfl⟩
  have identities : ρ.identities.Pairs m.nextIdentity n.nextIdentity := .inr ⟨rfl, rfl⟩
  refine ⟨ρ, ⟨made.modify pair (fun _ => rfl) (fun _ => rfl) ?_, machines.given, room_eq⟩, pair⟩
  have global := relatesScope_global identities
  exact ⟨(made.scope pair).parent, global.bindings⟩

/-- What is related by each renaming. -/
abbrev Relation (α β : Type) : Type := Renaming → α → β → Prop

end Renaming

namespace Outcome

variable {ε ε' α β : Type}

/-- The same failure, or related results. -/
inductive Rel (r : α → β → Prop) : Outcome ε α → Outcome ε β → Prop
  | value {a b} (related : r a b) : Rel r (.value a) (.value b)
  | failure (e : ε) : Rel r (.failure e) (.failure e)
  | unfinished : Rel r .unfinished .unfinished

theorem Rel.mono {r r' : α → β → Prop} {x : Outcome ε α} {y : Outcome ε β} (h : Rel r x y)
    (k : ∀ a b, r a b → r' a b) : Rel r' x y := by
  cases h with
  | value related => exact .value (k _ _ related)
  | failure e => exact .failure e
  | unfinished => exact .unfinished

theorem Rel.mapError {r : α → β → Prop} {x : Outcome ε α} {y : Outcome ε β} (h : Rel r x y)
    (f : ε → ε') : Rel r (x.mapError f) (y.mapError f) := by
  cases h with
  | value related => exact .value related
  | failure e => exact .failure (f e)
  | unfinished => exact .unfinished

end Outcome

namespace Machine

/-- Both machines printed the same text since two earlier states. -/
def SaidAlike (m n m' n' : Machine) : Prop :=
  ∃ text, m'.sink.written = m.sink.written ++ text ∧ n'.sink.written = n.sink.written ++ text

variable {m n m' n' m'' n'' : Machine}

theorem saidAlike_refl : SaidAlike m n m n := ⟨"", by simp, by simp⟩

theorem SaidAlike.trans (first : SaidAlike m n m' n') (second : SaidAlike m' n' m'' n'') :
    SaidAlike m n m'' n'' := by
  obtain ⟨text, left, right⟩ := first
  obtain ⟨more, left', right'⟩ := second
  refine ⟨text ++ more, ?_, ?_⟩
  · rw [left', left, String.append_assoc]
  · rw [right', right, String.append_assoc]

end Machine

namespace Sink

/-- Sinks with the same room take the same text of what is written to them. -/
theorem writeAll_alike (pieces : List String) {s t : Sink} (room_eq : s.room = t.room) :
    (s.writeAll pieces).1 = (t.writeAll pieces).1 ∧
      (s.writeAll pieces).2.room = (t.writeAll pieces).2.room ∧
        ∃ text, (s.writeAll pieces).2.written = s.written ++ text ∧
          (t.writeAll pieces).2.written = t.written ++ text := by
  induction pieces generalizing s t with
  | nil => exact ⟨rfl, room_eq, "", by simp [writeAll], by simp [writeAll]⟩
  | cons piece rest ih =>
    have fits_eq : s.fits piece = t.fits piece := by
      rw [fits, fits, room_eq]
    simp only [writeAll, fits_eq]
    split
    · obtain ⟨complete, room, text, left, right⟩ :=
        ih (s := s.append piece) (t := t.append piece) (congrArg (Option.map _) room_eq)
      refine ⟨complete, room, piece ++ text, ?_, ?_⟩
      · rw [left, ← String.append_assoc]
        rfl
      · rw [right, ← String.append_assoc]
        rfl
    · exact ⟨rfl, room_eq, "", by simp, by simp⟩

end Sink

/-- Two runs that began on the machines `m` and `n`, related by `ρ`, ended alike: with the same text
printed, and on machines that `σ` relates. -/
structure EndAlike {ε α β : Type} (related : Renaming.Relation α β) (ρ σ : Renaming)
    (m n : Machine) (x : Outcome ε α × Machine) (y : Outcome ε β × Machine) : Prop where
  extended : ρ ≤ σ
  machines : σ.Relates x.2 y.2
  outcomes : Outcome.Rel (related σ) x.1 y.1
  said : m.SaidAlike n x.2 y.2

end Scriptlet
