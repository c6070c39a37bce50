import Scriptlet.Eval.Fault
import Scriptlet.Scope.Store

/-!
# The machine

All that a running program can change: the scopes, the next identity to give out, and the text that
was printed. A run is a function on machines. It ends with a result or a fault, or is cut short when
calls are nested deeper than allowed, and in each case leaves a machine behind.
-/
namespace Scriptlet

/-- Where printed text goes. -/
structure Sink where
  written : String
  /-- How many more bytes fit; there may be no limit. -/
  room : Option Nat
  deriving DecidableEq, Repr, Inhabited

namespace Sink

def unlimited : Sink := ⟨"", none⟩

def withRoom (room : Option Nat) : Sink := ⟨"", room⟩

def fits (sink : Sink) (text : String) : Bool := sink.room.all (text.utf8ByteSize ≤ ·)

def append : Sink → String → Sink
  | ⟨written, room⟩, text => ⟨written ++ text, room.map (· - text.utf8ByteSize)⟩

/-- Writes pieces one by one up to the first that does not fit whole, and tells whether all fitted.
What was written stays. -/
def writeAll (sink : Sink) : List String → Bool × Sink
  | [] => (true, sink)
  | piece :: rest => if sink.fits piece then writeAll (sink.append piece) rest else (false, sink)

end Sink

structure Machine where
  store : Store
  nextIdentity : Identity
  sink : Sink
  deriving Repr, Inhabited

namespace Machine

/-- Nothing declared and nothing printed yet. -/
def initial : Machine := ⟨.empty, 0, .unlimited⟩

/-- Makes a scope. -/
def newScope : Machine → (parent : Option ScopeId) → ScopeId × Machine
  | ⟨store, nextIdentity, sink⟩, parent =>
    let (id, store) := store.create parent
    (id, ⟨store, nextIdentity, sink⟩)

def newIdentity : Machine → Identity × Machine
  | ⟨store, nextIdentity, sink⟩ => (nextIdentity, ⟨store, nextIdentity + 1, sink⟩)

/-- Adds text to what was printed, whether it fits or not. -/
def say : Machine → String → Machine
  | ⟨store, nextIdentity, sink⟩, text => ⟨store, nextIdentity, sink.append text⟩

end Machine

/-- How a run ends. -/
inductive Outcome (ε α : Type) where
  | value (a : α)
  | failure (e : ε)
  /-- Calls were nested deeper than allowed. -/
  | unfinished
  deriving DecidableEq, Repr

namespace Outcome

def ofExcept {ε α : Type} : Except ε α → Outcome ε α
  | .ok a => value a
  | .error e => failure e

def mapError {ε ε' α : Type} (f : ε → ε') : Outcome ε α → Outcome ε' α
  | value a => value a
  | failure e => failure (f e)
  | unfinished => unfinished

theorem mapError_eq_value {ε ε' α : Type} {f : ε → ε'} {x : Outcome ε α} {a : α} :
    x.mapError f = .value a ↔ x = .value a := by
  cases x <;> simp [mapError]

theorem mapError_eq_failure {ε ε' α : Type} {f : ε → ε'} {x : Outcome ε α} {e' : ε'} :
    x.mapError f = .failure e' ↔ ∃ e, x = .failure e ∧ f e = e' := by
  cases x <;> simp [mapError]

end Outcome

namespace Eval

/-- A computation on the machine. -/
def Run (α : Type) : Type := Machine → Outcome (Located Fault) α × Machine

namespace Run

def pure {α : Type} (a : α) : Run α := fun machine => (.value a, machine)

/-- The second computation starts on the machine that the first one leaves. A fault ends both. -/
def bind {α β : Type} (first : Run α) (second : α → Run β) : Run β := fun machine =>
  match first machine with
  | (.value a, next) => second a next
  | (.failure e, next) => (.failure e, next)
  | (.unfinished, next) => (.unfinished, next)

instance : Monad Run where
  pure := Run.pure
  bind := Run.bind

@[simp] theorem pure_apply {α : Type} (a : α) (machine : Machine) :
    (Pure.pure a : Run α) machine = (.value a, machine) := rfl

theorem bind_apply {α β : Type} (first : Run α) (second : α → Run β) (machine : Machine) :
    (first >>= second) machine =
      match first machine with
      | (.value a, next) => second a next
      | (.failure e, next) => (.failure e, next)
      | (.unfinished, next) => (.unfinished, next) := rfl

theorem id_map {α : Type} (x : Run α) : id <$> x = x := by
  funext machine
  change Run.bind x (fun a => Run.pure (id a)) machine = x machine
  unfold Run.bind
  obtain ⟨outcome, next⟩ := x machine
  cases outcome <;> rfl

theorem bind_assoc {α β γ : Type} (x : Run α) (f : α → Run β) (g : β → Run γ) :
    x >>= f >>= g = x >>= fun a => f a >>= g := by
  funext machine
  change Run.bind (Run.bind x f) g machine = Run.bind x (fun a => Run.bind (f a) g) machine
  unfold Run.bind
  obtain ⟨outcome, next⟩ := x machine
  cases outcome <;> rfl

instance : LawfulMonad Run := LawfulMonad.mk' Run id_map (fun _ _ => rfl) bind_assoc

def fail {α : Type} (cause : Fault) (span : Span) : Run α := fun machine =>
  (.failure ⟨cause, span⟩, machine)

def unfinished {α : Type} : Run α := fun machine => (.unfinished, machine)

/-- The result of an operation on the characters of `span`. -/
def ofExcept {α : Type} (span : Span) : Except Fault α → Run α
  | .ok a => pure a
  | .error cause => fail cause span

def newScope (parent : ScopeId) : Run ScopeId := fun machine =>
  let (id, next) := machine.newScope (some parent)
  (.value id, next)

def newIdentity : Run Identity := fun machine =>
  let (id, next) := machine.newIdentity
  (.value id, next)

/-- The value of a name as seen from a scope. -/
def get (scope : ScopeId) (name : String) (span : Span) : Run Value := fun machine =>
  match machine.store.get scope name with
  | .ok value => (.value value, machine)
  | .error fault => (.failure ⟨.scope fault, span⟩, machine)

/-- Changes the scopes, unless that is at fault; then the machine stays as it is. -/
def updateStore (span : Span) (fault? : Store → Option ScopeFault) (change : Store → Store) :
    Run Unit := fun ⟨store, nextIdentity, sink⟩ =>
  match fault? store with
  | some fault => (.failure ⟨.scope fault, span⟩, ⟨store, nextIdentity, sink⟩)
  | none => (.value (), ⟨change store, nextIdentity, sink⟩)

def declare (scope : ScopeId) (name : String) (value : Value) (constant : Bool) (span : Span) :
    Run Unit :=
  updateStore span (·.declareFault? scope name) (·.bind scope name value constant)

def assign (scope : ScopeId) (name : String) (value : Value) (span : Span) : Run Unit :=
  updateStore span (·.assignFault? scope name) (·.set scope name value)

end Run

end Eval

end Scriptlet
