import Scriptlet.Proofs.Eval.Identity.Journal

/-!
# Where values come from

In a journal an object or a function comes from the entry that says that it was made. A journal is
sound if all that an entry tells of was made before it, and what it makes has an identity that
nothing before it has (`Sound`). In a sound journal everything that can be found anywhere comes from
one entry alone, and its identity tells which.
-/
namespace Scriptlet

namespace Value

/-- An object or a declared function. -/
def IsMade : Value → Prop
  | .object .. | .function .. => True
  | _ => False

theorem strictEqual_self {v : Value} (made : v.IsMade) : v.strictEqual v = true := by
  cases v with
  | object | function => exact decide_eq_true rfl
  | _ => cases made

/-- Equality of objects and of functions is that of their identities. -/
theorem identity?_eq_of_strictEqual {v w : Value} (made : v.IsMade)
    (equal : v.strictEqual w = true) : v.identity? = w.identity? := by
  cases v with
  | object id entries =>
    cases w with
    | object => exact congrArg some (of_decide_eq_true equal)
    | _ => cases equal
  | function id closure =>
    cases w with
    | function => exact congrArg some (of_decide_eq_true equal)
    | _ => cases equal
  | _ => cases made

end Value

/-- What is made has an identity. -/
theorem Node.Makes.isSome {node : Node} {v : Value} (makes : node.Makes v) :
    v.identity?.isSome := by
  cases makes <;> rfl

namespace Eval

/-- What can be found in a state: the values that are at hand or bound in any scope, and what these
lead to, members and what functions captured. -/
def Found (values : List Value) (state : Machine) (v : Value) : Prop :=
  state.store.Reachable (fun r => (∃ id, r = .scope id) ∨ ∃ w ∈ values, r = .value w) (.value v)

/-- What can be found in the state of an entry. -/
def Entry.Shows : Entry → Value → Prop
  | .made _ _ before, v => Found [] before v
  | .seen values state, v => Found values state v

/-- The evaluation that is the entry at `i` of a journal made a value. -/
def Origin (J : List Entry) (i : Nat) (v : Value) : Prop :=
  ∃ node before, J[i]? = some (.made node v before) ∧ node.Makes v

/-- A value that a journal tells of: one that it says was made, the global `print`, or one without
identity. -/
inductive Known (printId : Identity) (J : List Entry) : Value → Prop
  | plain {v} (none : v.identity? = none) : Known printId J v
  | print : Known printId J (.native printId Native.printName)
  | made {node v before} (member : .made node v before ∈ J) : Known printId J v

/-- All that scopes bind is known. -/
def KnownStore (printId : Identity) (J : List Entry) (store : Store) : Prop :=
  ∀ id name binding, (store.scope id).find? name = some binding → Known printId J binding.value

/-- Something is made of known values in a state that binds only such, and differs from all of
them. -/
structure Fresh (printId : Identity) (J : List Entry) (node : Node) (v : Value) (before : Machine) :
    Prop where
  makes : node.Makes v
  parts : ∀ id entries, v = .object id entries → ∀ entry ∈ entries, Known printId J entry.2
  state : KnownStore printId J before.store
  apart : ∀ w, Known printId J w → w.identity? ≠ v.identity?

/-- An entry tells of nothing that is not known before it. -/
def Supported (printId : Identity) (J : List Entry) : Entry → Prop
  | .made node v before => Fresh printId J node v before
  | .seen values state => (∀ v ∈ values, Known printId J v) ∧ KnownStore printId J state.store

/-- Every entry is supported by those before it. -/
def Sound (printId : Identity) (J : List Entry) : Prop :=
  ∀ front e back, J = front ++ e :: back → Supported printId front e

variable {printId : Identity} {J J' front back : List Entry} {e : Entry} {v w : Value}
  {store : Store}

theorem Known.mono (known : Known printId J v) (further : J ⊆ J') : Known printId J' v := by
  cases known with
  | plain none => exact .plain none
  | print => exact .print
  | made member => exact .made (further member)

theorem KnownStore.mono (known : KnownStore printId J store) (further : J ⊆ J') :
    KnownStore printId J' store :=
  fun id name binding bound => (known id name binding bound).mono further

theorem sound_nil : Sound printId [] := by
  intro front e back split
  cases front <;> cases split

theorem Sound.concat (sound : Sound printId J) (supported : Supported printId J e) :
    Sound printId (J ++ [e]) := by
  intro front other back split
  rcases List.eq_nil_or_concat back with rfl | ⟨back, last, rfl⟩
  · obtain ⟨rfl, last⟩ := List.append_inj' split rfl
    exact (List.cons.inj last).1 ▸ supported
  · rw [List.concat_eq_append, ← List.cons_append, ← List.append_assoc] at split
    exact sound front other back (List.append_inj_left' split rfl)

theorem Sound.of_append (sound : Sound printId (front ++ back)) : Sound printId front := by
  rintro first e rest rfl
  exact sound first e (rest ++ back) (by simp)

/-- What was made of known values leads to known values only. -/
theorem Sound.part (sound : Sound printId J) {id : Identity} {entries : Entries}
    (known : Known printId J (.object id entries)) {entry : String × Value}
    (member : entry ∈ entries) : Known printId J entry.2 := by
  cases known with
  | plain none => cases none
  | made listed =>
    obtain ⟨front, back, rfl⟩ := List.append_of_mem listed
    have fresh : Fresh .. := sound front _ back rfl
    exact (fresh.parts id entries rfl entry member).mono (List.subset_append_left _ _)

theorem Sound.known_of_found (sound : Sound printId J) {values : List Value} {state : Machine}
    (at_hand : ∀ w ∈ values, Known printId J w) (bound : KnownStore printId J state.store)
    (found : Found values state v) : Known printId J v := by
  have onward : ∀ r, state.store.Reachable
      (fun r => (∃ id, r = .scope id) ∨ ∃ w ∈ values, r = .value w) r →
        ∀ v, r = .value v → Known printId J v := by
    intro r reached
    induction reached with
    | root is_root =>
      rintro v rfl
      rcases is_root with ⟨id, ⟨⟩⟩ | ⟨w, member, same⟩
      obtain rfl := Referent.value.inj same
      exact at_hand v member
    | next _ step ih =>
      rintro v rfl
      cases step with
      | binding found => exact bound _ _ _ found
      | entry member => exact sound.part (ih _ rfl) member
  exact onward _ found v rfl

/-- What can be found in an entry is known before it. -/
theorem Sound.known_of_shows (sound : Sound printId (front ++ e :: back)) (shows : e.Shows v) :
    Known printId front v := by
  have supported := sound front e back rfl
  cases e with
  | made node made before =>
    have fresh : Fresh .. := supported
    exact sound.of_append.known_of_found (List.forall_mem_nil _) fresh.state shows
  | seen values state => exact sound.of_append.known_of_found supported.1 supported.2 shows

theorem Sound.known_of_mem (sound : Sound printId J) (member : e ∈ J) (shows : e.Shows v) :
    Known printId J v := by
  obtain ⟨front, back, rfl⟩ := List.append_of_mem member
  exact (sound.known_of_shows shows).mono (List.subset_append_left _ _)

/-! Entries by their places. -/

variable {i j : Nat} {node other : Node} {before state : Machine}

theorem exists_split (stands : J[i]? = some e) :
    ∃ front back, J = front ++ e :: back ∧ front = J.take i := by
  obtain ⟨inside, rfl⟩ := List.getElem?_eq_some_iff.mp stands
  exact ⟨J.take i, J.drop (i + 1), by simp, rfl⟩

theorem Sound.supported (sound : Sound printId J) (stands : J[i]? = some e) :
    Supported printId (J.take i) e := by
  obtain ⟨front, back, split, rfl⟩ := exists_split stands
  exact sound _ e back split

/-- What is made has an identity that nothing has that can be found up to then. -/
theorem Sound.fresh (sound : Sound printId J) (made : J[i]? = some (.made node v before))
    (earlier : j ≤ i) (stands : J[j]? = some e) (shows : e.Shows w) :
    w.identity? ≠ v.identity? := by
  obtain ⟨front, back, split, rfl⟩ := exists_split stands
  have known := (split ▸ sound).known_of_shows shows
  have fresh : Fresh .. := sound.supported made
  exact fresh.apart w (known.mono (List.take_subset_take_left J earlier))

/-- Two evaluations make values of different identities. -/
theorem Sound.apart (sound : Sound printId J) (before' : i < j)
    (first : J[i]? = some (.made node v before)) (second : J[j]? = some (.made other w state)) :
    v.identity? ≠ w.identity? := by
  have fresh : Fresh .. := sound.supported second
  have earlier : (J.take j)[i]? = some (.made node v before) := by
    rw [List.getElem?_take_of_lt before', first]
  exact fresh.apart v (.made (List.mem_of_getElem? earlier))

/-- An evaluation makes one value. -/
theorem Origin.eq (of_v : Origin J i v) (of_w : Origin J i w) : v = w := by
  obtain ⟨node, before, first, -⟩ := of_v
  obtain ⟨other, state, second, -⟩ := of_w
  cases first.symm.trans second
  rfl

/-- The identity of a value tells from which evaluation it comes. -/
theorem Sound.origin_unique (sound : Sound printId J) (from_v : Origin J i v)
    (from_w : Origin J j w) (same : v.identity? = w.identity?) : i = j ∧ v = w := by
  obtain ⟨node, before, first, -⟩ := from_v
  obtain ⟨other, state, second, -⟩ := from_w
  rcases Nat.lt_trichotomy i j with less | rfl | greater
  · exact absurd same (sound.apart less first second)
  · cases first.symm.trans second
    exact ⟨rfl, rfl⟩
  · exact absurd same.symm (sound.apart greater second first)

/-- Objects and functions that are known come from some evaluation. -/
theorem Sound.exists_origin (sound : Sound printId J) (known : Known printId J v)
    (made : v.IsMade) : ∃ i, Origin J i v := by
  cases known with
  | plain none =>
    cases v with
    | object | function => cases none
    | _ => exact made.elim
  | print => exact made.elim
  | made member =>
    obtain ⟨i, stands⟩ := List.mem_iff_getElem?.mp member
    have fresh : Fresh .. := sound.supported stands
    exact ⟨i, _, _, stands, fresh.makes⟩

/-- Nothing else that is known has the identity of a value that an evaluation made. -/
theorem Sound.eq_of_identity (sound : Sound printId J) (origin : Origin J i v)
    (known : Known printId J w) (same : v.identity? = w.identity?) : v = w := by
  obtain ⟨node, before, stands, makes⟩ := origin
  have fresh : Fresh .. := sound.supported stands
  cases known with
  | plain none => exact absurd (same.trans none) (Option.isSome_iff_ne_none.mp makes.isSome)
  | print => exact absurd same.symm (fresh.apart _ .print)
  | made member =>
    obtain ⟨j, other⟩ := List.mem_iff_getElem?.mp member
    have also : Fresh .. := sound.supported other
    exact (sound.origin_unique ⟨node, before, stands, makes⟩ ⟨_, _, other, also.makes⟩ same).2

end Eval

end Scriptlet
