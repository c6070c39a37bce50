import Scriptlet.Interpreter
import Scriptlet.Proofs.Eval.Contract

/-!
# Declarations stay local

A statement declares a name in the scope in which it stands and nowhere else, and only if it is
evaluated to a value. What runs inside of it, in blocks, calls and expressions, declares names in
scopes that are made on the way. So from a list of statements the scopes that were there before
learn the names of those of its declarations that were completed (`declarations_local`), and all of
them in the scope of the list.
-/
namespace Scriptlet

namespace Store

variable {store before middle after : Store} {env : ScopeId}

/-- The scopes that satisfy `fixed` keep the names they bind, and no scope goes away. -/
structure NamesKept (fixed : ScopeId → Prop) (before after : Store) : Prop where
  size_le : before.scopes.size ≤ after.scopes.size
  binds_iff : ∀ id, fixed id → ∀ x, (after.scope id).binds x ↔ (before.scope id).binds x

/-- Of the scopes that were there before, `env` binds also the names `added`, each of them anew, and
all others bind what they did. -/
structure NamesAdded (env : ScopeId) (added : List String) (before after : Store) : Prop where
  size_le : before.scopes.size ≤ after.scopes.size
  others : ∀ id < before.scopes.size, id ≠ env →
    ∀ x, (after.scope id).binds x ↔ (before.scope id).binds x
  own : ∀ x, (after.scope env).binds x ↔ (before.scope env).binds x ∨ x ∈ added
  unbound : ∀ x ∈ added, ¬(before.scope env).binds x
  nodup : added.Nodup

theorem NamesKept.namesAdded (kept : NamesKept (· < before.scopes.size) before after)
    (made : env < before.scopes.size) : NamesAdded env [] before after where
  size_le := kept.size_le
  others id old _ := kept.binds_iff id old
  own x := by simp [kept.binds_iff env made x]
  unbound _ member := absurd member List.not_mem_nil
  nodup := .nil

theorem NamesAdded.namesKept (added : NamesAdded env [] before after) :
    NamesKept (· < before.scopes.size) before after where
  size_le := added.size_le
  binds_iff id old x := by
    by_cases own : id = env
    · subst own
      simpa using added.own x
    · exact added.others id old own x

/-- What is added later was bound neither at first nor in between. -/
theorem NamesAdded.trans {xs ys : List String} (first : NamesAdded env xs before middle)
    (second : NamesAdded env ys middle after) : NamesAdded env (xs ++ ys) before after where
  size_le := Nat.le_trans first.size_le second.size_le
  others id old different x :=
    (second.others id (Nat.lt_of_lt_of_le old first.size_le) different x).trans
      (first.others id old different x)
  own x := by rw [second.own, first.own, List.mem_append, or_assoc]
  unbound x member bound := by
    rcases List.mem_append.mp member with early | late
    · exact first.unbound x early bound
    · exact second.unbound x late ((first.own x).mpr (.inl bound))
  nodup := by
    refine List.nodup_append.mpr ⟨first.nodup, second.nodup, ?_⟩
    rintro x early _ late rfl
    exact second.unbound x late ((first.own x).mpr (.inr early))

theorem namesAdded_bind (made : env < store.scopes.size) {name : String}
    (free : store.declareFault? env name = none) (value : Value) (constant : Bool) :
    NamesAdded env [name] store (store.bind env name value constant) where
  size_le := by simp [bind, size_modify]
  others id _ different x := by simp [binds_bind made, different]
  own x := by simp [binds_bind made]
  unbound x member := by
    rw [List.mem_singleton.mp member]
    simpa [declareFault?] using free
  nodup := by simp

end Store

namespace Eval

open Store

/-- The native functions declare no names: the scopes that are there keep what they bind. -/
def Host.DeclaresNothing (host : Host) : Prop :=
  ∀ name native, host name = some native → ∀ args site machine,
    NamesKept (· < machine.store.scopes.size) machine.store (native args site machine).2.store

/-- The contract that some of the first `count` scopes keep their names. Names are declared in the
others. -/
def namesContract {host : Host} (modest : host.DeclaresNothing) (count : Nat)
    (fixed : ScopeId → Prop) (old : ∀ id, fixed id → id < count) : Contract host where
  Holds m := count ≤ m.store.scopes.size
  Future m n := NamesKept fixed m.store n.store
  Sees _ _ := True
  Owns _ id := ¬fixed id
  Has _ _ := True
  Knows _ := True
  Code _ := True
  Raised _ := True
  refl _ := ⟨Nat.le_refl _, fun _ _ _ => Iff.rfl⟩
  trans first second :=
    ⟨Nat.le_trans first.size_le second.size_le, fun id still x =>
      (second.binds_iff id still x).trans (first.binds_iff id still x)⟩
  sees_later _ _ := trivial
  owns_later _ owns := owns
  has_later _ _ := trivial
  sees_of_owns _ := trivial
  plain _ := trivial
  bound _ _ _ := trivial
  member _ _ := trivial
  function _ := ⟨trivial, trivial⟩
  body _ _ _ := trivial
  part _ _ := trivial
  newScope {m parent} holds _ := by
    have grown := (grows_create m.store (some parent)).size_le
    refine ⟨Nat.le_trans holds grown, ⟨grown, ?_⟩, ?_⟩
    · intro id still x
      have made : id ≠ m.store.scopes.size :=
        Nat.ne_of_lt (Nat.lt_of_lt_of_le (old id still) holds)
      rw [show (m.newScope (some parent)).2.store = (m.store.create (some parent)).2 from rfl,
        scope_create, if_neg made]
    · intro still
      exact absurd (old _ still) (Nat.not_lt.mpr holds)
  newObject holds _ := ⟨holds, ⟨Nat.le_refl _, fun _ _ _ => Iff.rfl⟩, trivial⟩
  newFunction holds _ _ := ⟨holds, ⟨Nat.le_refl _, fun _ _ _ => Iff.rfl⟩, trivial⟩
  declare {m scope name v} constant holds owns _ _ := by
    have size_eq : (m.store.bind scope name v constant).scopes.size = m.store.scopes.size := by
      simp [Store.bind, size_modify]
    refine ⟨Nat.le_trans holds (Nat.le_of_eq size_eq.symm), Nat.le_of_eq size_eq.symm, ?_⟩
    intro id still x
    have different : id ≠ scope := fun same => owns (same ▸ still)
    constructor
    · intro bound
      exact (binds_of_binds_bind bound).resolve_right fun own => different own.1
    · intro bound
      obtain ⟨binding, found⟩ := Option.isSome_iff_exists.mp bound
      obtain ⟨later, found', -⟩ := (grows_bind m.store scope name v constant).binding_kept id x _ found
      exact Option.isSome_of_eq_some found'
  assign holds _ _ _ _ :=
    ⟨by simpa only [size_set] using holds, Nat.le_of_eq (size_set _ _ _).symm,
      fun id _ x => by rw [binds_set]⟩
  native {name native args site m} known holds _ _ := by
    have kept := modest name native known args site m
    refine ⟨Nat.le_trans holds kept.size_le, ⟨kept.size_le, ?_⟩, fun _ _ => trivial,
      fun _ _ => trivial⟩
    intro id still x
    exact kept.binds_iff id (Nat.lt_of_lt_of_le (old id still) holds) x

/-- The statements of a list that are evaluated to a value, one after the other, before the run of
the list ends. -/
def completed (caller : Caller) (scope : ScopeId) : List Stmt → Machine → List Stmt
  | [], _ => []
  | s :: rest, machine =>
    match evalStmt caller scope s machine with
    | (.value _, next) => s :: completed caller scope rest next
    | _ => []

section

variable {host : Host} {α : Type} {env : ScopeId} {machine : Machine}

/-- What a declaration does once it has its value: it adds the name, or it fails. -/
theorem namesAdded_declare (made : env < machine.store.scopes.size) {first : Run α}
    (kept : NamesKept (· < machine.store.scopes.size) machine.store (first machine).2.store)
    (name : String) (value : α → Value) (result : α → Value) (constant : Bool) (span : Span) :
    let run := (first >>= fun a =>
      Run.declare env name (value a) constant span >>= fun _ => pure (result a) : Run Value) machine
    (∃ v, run.1 = .value v) ∧ NamesAdded env [name] machine.store run.2.store ∨
      (∀ v, run.1 ≠ .value v) ∧ NamesAdded env [] machine.store run.2.store := by
  have begun := kept.namesAdded made
  rw [Run.bind_apply]
  cases ran : first machine with
  | mk outcome next =>
    rw [ran] at kept begun
    cases outcome with
    | value a =>
      simp only [Run.bind_apply, Run.declare, Run.updateStore]
      cases free : next.store.declareFault? env name with
      | some fault => exact .inr ⟨fun _ => by simp, begun⟩
      | none =>
        have declared := namesAdded_bind (Nat.lt_of_lt_of_le made kept.size_le) free
          (value a) constant
        exact .inl ⟨⟨_, rfl⟩, begun.trans declared⟩
    | failure e => exact .inr ⟨fun _ => by simp, begun⟩
    | unfinished => exact .inr ⟨fun _ => by simp, begun⟩

end

section

variable {host : Host} (modest : host.DeclaresNothing) (depth : Nat) {env : ScopeId}
  {machine : Machine}
include modest

theorem evalExpr_namesKept (scope : ScopeId) (e : Expr) (machine : Machine) :
    NamesKept (· < machine.store.scopes.size) machine.store
      (evalExpr (invoke host depth) scope e machine).2.store :=
  let C := namesContract modest machine.store.scopes.size _ fun _ old => old
  (evalExpr_keeps (invoke_keeps C depth) scope e trivial trivial (Nat.le_refl _)).future

theorem invoke_namesKept (f : Value) (args : List Value) (site : ScopeId) (span : Span)
    (machine : Machine) :
    NamesKept (· < machine.store.scopes.size) machine.store
      (invoke host depth f args site span machine).2.store :=
  let C := namesContract modest machine.store.scopes.size _ fun _ old => old
  (invoke_keeps C depth trivial (fun _ _ => trivial) trivial
    ⟨.name "" span, [], trivial⟩ (Nat.le_refl _)).future

/-- A statement that is no declaration adds no name to any scope. -/
theorem evalStmt_namesKept (scope : ScopeId) {s : Stmt} (undeclared : s.declared? = none)
    (machine : Machine) :
    NamesKept (· < machine.store.scopes.size) machine.store
      (evalStmt (invoke host depth) scope s machine).2.store := by
  let C := namesContract modest machine.store.scopes.size _ fun _ old => old
  have owns : s.declared?.isSome → C.Owns machine scope := by simp [undeclared]
  exact (evalStmt_keeps (invoke_keeps C depth) scope s trivial trivial owns (Nat.le_refl _)).future

/-- A statement adds the name it declares, if it is evaluated to a value. -/
theorem evalStmt_namesAdded (made : env < machine.store.scopes.size) (s : Stmt) :
    let run := evalStmt (invoke host depth) env s machine
    (∃ v, run.1 = .value v) ∧ NamesAdded env s.declared?.toList machine.store run.2.store ∨
      (∀ v, run.1 ≠ .value v) ∧ NamesAdded env [] machine.store run.2.store := by
  have undeclared : s.declared? = none →
      NamesAdded env [] machine.store
        (evalStmt (invoke host depth) env s machine).2.store := fun none =>
    (evalStmt_namesKept modest depth env none machine).namesAdded made
  have either : ∀ x : Outcome (Located Fault) Value, (∃ v, x = .value v) ∨ ∀ v, x ≠ .value v := by
    intro x
    cases x <;> simp
  cases s with
  | declare name constant value span =>
    cases value with
    | some value =>
      rw [evalStmt]
      have kept := evalExpr_namesKept modest depth env value machine
      exact namesAdded_declare made kept name id id constant span
    | none =>
      rw [evalStmt]
      exact namesAdded_declare made ⟨Nat.le_refl _, fun _ _ _ => Iff.rfl⟩ name id id constant span
  | function name params body span =>
    rw [evalStmt]
    exact namesAdded_declare made ⟨Nat.le_refl _, fun _ _ _ => Iff.rfl⟩ name
      (fun id => .function id ⟨name, params, body, env⟩) (fun _ => .null) true span
  | branch condition body alternatives last span =>
    exact (either _).imp (⟨·, undeclared rfl⟩) (⟨·, undeclared rfl⟩)
  | expr value span => exact (either _).imp (⟨·, undeclared rfl⟩) (⟨·, undeclared rfl⟩)

theorem evalSequence_namesAdded (made : env < machine.store.scopes.size) (last : Value)
    (statements : List Stmt) :
    NamesAdded env ((completed (invoke host depth) env statements machine).filterMap Stmt.declared?)
      machine.store (evalSequence (invoke host depth) env last statements machine).2.store := by
  induction statements generalizing last machine with
  | nil => exact NamesKept.namesAdded ⟨Nat.le_refl _, fun _ _ _ => Iff.rfl⟩ made
  | cons s rest ih =>
    have one := evalStmt_namesAdded modest depth made s
    rw [evalSequence, completed, Run.bind_apply]
    cases ran : evalStmt (invoke host depth) env s machine with
    | mk outcome next =>
      rw [ran] at one
      cases outcome with
      | value v =>
        have added := (one.resolve_right fun failed => failed.1 v rfl).2
        have later := ih (Nat.lt_of_lt_of_le made added.size_le) v
        have split : (s :: completed (invoke host depth) env rest next).filterMap Stmt.declared? =
            s.declared?.toList ++
              (completed (invoke host depth) env rest next).filterMap Stmt.declared? := by
          cases declared : s.declared? <;> simp [declared]
        rw [split]
        exact added.trans later
      | failure e => exact (one.resolve_left fun ⟨⟨_, value⟩, _⟩ => by cases value).2
      | unfinished => exact (one.resolve_left fun ⟨⟨_, value⟩, _⟩ => by cases value).2

end

theorem declaresNothing_standard : Host.standard.DeclaresNothing := by
  intro name native known args site machine
  obtain rfl := Host.eq_print_of_standard known
  exact ⟨Nat.le_refl _, fun _ _ _ => Iff.rfl⟩

end Eval

namespace Setup

open Store Eval

/-- A list of statements, whether it is a program, a block or the body of a function, and however
its run ends, adds the names of its completed declarations to its own scope, each of them anew; the
other scopes that were there bind what they did. No other statement, no declaration that fails, no
expression and no call adds a name to a scope that was there. -/
theorem declarations_local (setup : Setup) (modest : setup.host.DeclaresNothing) {env : ScopeId}
    {machine : Machine} (made : env < machine.store.scopes.size) :
    let calls := invoke setup.host setup.depth
    (∀ last statements,
      NamesAdded env ((completed calls env statements machine).filterMap Stmt.declared?)
        machine.store (evalSequence calls env last statements machine).2.store) ∧
    (∀ s, s.declared? = none ∨ (∀ v, (Eval.evalStmt calls env s machine).1 ≠ .value v) →
      NamesKept (· < machine.store.scopes.size) machine.store
        (Eval.evalStmt calls env s machine).2.store) ∧
    (∀ e, NamesKept (· < machine.store.scopes.size) machine.store
      (evalExpr calls env e machine).2.store) ∧
    ∀ f args span, NamesKept (· < machine.store.scopes.size) machine.store
      (calls f args env span machine).2.store := by
  refine ⟨?_, ?_, ?_, ?_⟩
  · exact fun last statements => evalSequence_namesAdded modest setup.depth made last statements
  · rintro s (undeclared | failed)
    · exact evalStmt_namesKept modest setup.depth env undeclared machine
    · have either := evalStmt_namesAdded modest setup.depth made s
      exact (either.resolve_left fun ⟨⟨v, value⟩, _⟩ => failed v value).2.namesKept
  · exact fun e => evalExpr_namesKept modest setup.depth env e machine
  · exact fun f args span => invoke_namesKept modest setup.depth f args env span machine

/-- A program declares `x`, then `y` in a block, and fails at a second `x`: its scope knows one name
more. -/
theorem declarations_local_twice :
    Setup.standard.host.DeclaresNothing ∧
      let machine := Machine.initial.newGlobalScope.2
      let text : Expr := .text "a" ⟨8, 11⟩
      let program : Program :=
        [.declare "x" false (some text) ⟨0, 11⟩,
         .branch text [.declare "y" false none ⟨20, 25⟩] [] none ⟨12, 27⟩,
         .declare "x" true (some text) ⟨28, 41⟩]
      (Setup.standard.evalProgram 0 program machine).1 =
          .failure (Eval.Fault.diagnostic ⟨.scope (.redeclaration "x"), ⟨28, 41⟩⟩) ∧
        NamesAdded 0 ["x"] machine.store
          (Setup.standard.evalProgram 0 program machine).2.store := by
  refine ⟨declaresNothing_standard, ?_⟩
  intro machine text program
  have made : 0 < machine.store.scopes.size := by decide
  exact ⟨rfl, (declarations_local Setup.standard declaresNothing_standard made).1 .null program⟩

end Setup

end Scriptlet
