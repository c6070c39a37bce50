import Mathlib.Data.List.Forall2
import Scriptlet.Eval.Operation
import Scriptlet.Value.Printer

/-!
# Values of one kind

Values of one kind differ at most in their identities and in the parts that they hold. So they have
the same truth, the entries of two objects are read and written alike, and where the parts are again
of one kind, so are the texts (`Value.render_eq_of_resembles`). Operators tell such values apart by
their identities only (`Operator.apply_eq_of_resembles`).
-/
namespace Scriptlet

/-- What tells a value apart from others of the same content. -/
def Value.identity? : Value → Option Identity
  | .object id _ | .function id _ | .native id _ => some id
  | .number _ | .text _ | .boolean _ | .null => none

/-- Induction on the nesting of objects. -/
@[elab_as_elim]
theorem Value.nesting {P : Value → Prop}
    (plain : ∀ v, (∀ id entries, v ≠ .object id entries) → P v)
    (object : ∀ id entries, (∀ entry ∈ entries, P entry.2) → P (.object id entries)) :
    ∀ v, P v := by
  have parts : ∀ entry : String × Value, sizeOf entry.2 < sizeOf entry := by
    rintro ⟨key, v⟩
    rw [Prod.mk.sizeOf_spec]
    exact Nat.lt_add_of_pos_left (by omega)
  have below : ∀ size v, sizeOf v < size → P v := by
    intro size
    induction size with
    | zero => exact fun v impossible => absurd impossible (Nat.not_lt_zero _)
    | succ size ih =>
      intro v bound
      cases v with
      | object id entries =>
        refine object id entries fun entry member => ih entry.2 ?_
        have := List.sizeOf_lt_of_mem member
        have := parts entry
        simp at bound
        omega
      | _ => exact plain _ nofun
  exact fun v => below _ v (Nat.lt_succ_self _)

namespace Entries

/-- The same keys in the same order, with related values. -/
inductive Alike (related : Value → Value → Prop) : Entries → Entries → Prop
  | nil : Alike related [] []
  | cons {key v w entries others} (value : related v w) (members : Alike related entries others) :
      Alike related ((key, v) :: entries) ((key, w) :: others)

variable {related further : Value → Value → Prop} {entries others : Entries}

namespace Alike

theorem imp (h : Alike related entries others) (implied : ∀ {v w}, related v w → further v w) :
    Alike further entries others := by
  induction h with
  | nil => exact .nil
  | cons value _ ih => exact .cons (implied value) ih

theorem insert (h : Alike related entries others) (key : String) {v w : Value}
    (value : related v w) : Alike related (entries.insert key v) (others.insert key w) := by
  induction h with
  | nil => exact .cons value .nil
  | cons first members ih =>
    unfold Entries.insert
    split
    · exact .cons value members
    · exact .cons first ih

theorem get? (h : Alike related entries others) (key : String) :
    Option.Rel related (entries.get? key) (others.get? key) := by
  unfold Entries.get?
  induction h with
  | nil => exact .none
  | @cons found _ _ _ _ value _ ih =>
    rw [List.lookup_cons, List.lookup_cons]
    cases key == found with
    | true => exact .some value
    | false => exact ih

theorem isEmpty_eq (h : Alike related entries others) : entries.isEmpty = others.isEmpty := by
  cases h <;> rfl

theorem renderEntries_eq (h : Alike related entries others)
    (texts : ∀ entry ∈ entries, ∀ w, related entry.2 w →
      entry.2.nestedText entry.2.render = w.nestedText w.render) :
    Value.renderEntries entries = Value.renderEntries others := by
  induction h with
  | nil => rfl
  | cons value _ ih =>
    rw [List.forall_mem_cons] at texts
    rw [Value.renderEntries_cons, Value.renderEntries_cons, texts.1 _ value, ih texts.2]

end Alike

end Entries

/-- Values of one kind: the same value without identity, or two whose parts correspond. -/
inductive Value.Resembles (scopes : ScopeId → ScopeId → Prop) (values : Value → Value → Prop)
    (bodies : List Stmt → List Stmt → Prop) : Value → Value → Prop
  | plain {v} (none : v.identity? = none) : Resembles scopes values bodies v v
  | object {id id' entries others} (members : Entries.Alike values entries others) :
      Resembles scopes values bodies (.object id entries) (.object id' others)
  | function {id id' name params body body' scope scope'} (scope_pair : scopes scope scope')
      (body_pair : bodies body body') :
      Resembles scopes values bodies (.function id ⟨name, params, body, scope⟩)
        (.function id' ⟨name, params, body', scope'⟩)
  | native {id id' name} : Resembles scopes values bodies (.native id name) (.native id' name)

variable {scopes : ScopeId → ScopeId → Prop} {values related : Value → Value → Prop}
  {bodies : List Stmt → List Stmt → Prop} {v w a b : Value}

namespace Value

theorem Resembles.isTruthy_eq (h : v.Resembles scopes values bodies w) :
    v.isTruthy = w.isTruthy := by
  cases h <;> rfl

theorem Resembles.nestedText_eq (h : v.Resembles scopes values bodies w) (text : String) :
    v.nestedText text = w.nestedText text := by
  cases h <;> rfl

/-- A text shows nothing of identities, scopes and bodies. -/
theorem render_eq_of_resembles
    (resembles : ∀ {v w}, related v w → v.Resembles scopes related bodies w)
    (same : related v w) : v.render = w.render := by
  induction v using nesting generalizing w with
  | plain v no_object =>
    cases resembles same with
    | object => exact absurd rfl (no_object _ _)
    | plain | function | native => rfl
  | object id entries ih =>
    cases resembles same with
    | plain none => rfl
    | object members =>
      have texts := members.renderEntries_eq fun entry member w value => by
        rw [ih entry member value, (resembles value).nestedText_eq]
      rw [render_object, render_object, members.isEmpty_eq, texts]

/-- Values of the same texts are written alike. -/
theorem renders_eq {vs ws : List Value} (h : List.Forall₂ related vs ws)
    (render_eq : ∀ {v w}, related v w → v.render = w.render) :
    vs.map render = ws.map render := by
  induction h with
  | nil => rfl
  | cons first _ ih => rw [List.map_cons, List.map_cons, render_eq first, ih]

theorem Resembles.compare?_eq (left : v.Resembles scopes values bodies w)
    (right : a.Resembles scopes values bodies b) : v.compare? a = w.compare? b := by
  cases left with
  | plain => cases right <;> cases v <;> rfl
  | object | function | native => rfl

end Value

namespace Operator

theorem apply_eq_of_resembles (op : Operator) (left : v.Resembles scopes values bodies w)
    (right : a.Resembles scopes values bodies b) (equal : v.strictEqual a = w.strictEqual b) :
    op.apply v a = op.apply w b := by
  cases op with
  | connective op =>
    cases op <;> simp only [apply, Connective.holds, left.isTruthy_eq, right.isTruthy_eq]
  | comparison op =>
    cases op <;> simp only [apply, Comparison.holds, equal, left.compare?_eq right]
  | arithmetic op =>
    cases left with
    | plain => cases right <;> cases v <;> rfl
    | object | function | native => rfl

/-- What an operator gives has no identity. -/
theorem identity?_apply {op : Operator} {result : Value} (applied : op.apply a b = .ok result) :
    result.identity? = none := by
  cases op with
  | connective op =>
    cases applied
    rfl
  | comparison op =>
    cases applied
    rfl
  | arithmetic op =>
    change op.apply a b = .ok result at applied
    unfold Arithmetic.apply at applied
    split at applied
    · next m n =>
      cases computed : op.onNumbers m n with
      | error cause =>
        rw [computed] at applied
        cases applied
      | ok number =>
        rw [computed] at applied
        cases applied
        rfl
    · cases applied
      split <;> rfl
    · cases applied
      rfl

end Operator

end Scriptlet
