import Scriptlet.Proofs.Eval.FailStop

/-!
# Output that is only added to

Where output has no limit a program cannot tell what was written before it: a run adds its own text
behind that and does everything else alike (`Eval.Appends`). Native functions come from outside, and
that they treat output in this way is a premise on the host.
-/
namespace Scriptlet

namespace Machine

/-- The same machine with other text written, and no limit on what may follow. -/
def showing (m : Machine) (written : String) : Machine := { m with sink := ⟨written, none⟩ }

/-- What was printed on the way from one machine to another. -/
def printedSince (before after : Machine) : String :=
  String.ofList (after.sink.written.toList.drop before.sink.written.length)

@[simp] theorem store_showing (m : Machine) (written : String) :
    (m.showing written).store = m.store := rfl

@[simp] theorem nextIdentity_showing (m : Machine) (written : String) :
    (m.showing written).nextIdentity = m.nextIdentity := rfl

@[simp] theorem written_showing (m : Machine) (written : String) :
    (m.showing written).sink.written = written := rfl

variable {m : Machine}

theorem showing_self (unlimited : m.sink.room = none) : m.showing m.sink.written = m := by
  obtain ⟨store, nextIdentity, written, room⟩ := m
  cases unlimited
  rfl

theorem say_showing (written text : String) :
    (m.showing written).say text = m.showing (written ++ text) := rfl

theorem printedSince_showing (next : Machine) (written printed : String) :
    (m.showing written).printedSince (next.showing (written ++ printed)) = printed := by
  simp [printedSince, showing, ← String.length_toList]

end Machine

namespace Eval

variable {α β : Type} {m : Machine}

/-- What is done to a machine adds some text to unlimited output, and does not depend on the text
that stands there. -/
def Appends (action : Machine → α × Machine) : Prop :=
  ∀ m : Machine, ∃ (a : α) (next : Machine) (printed : String), ∀ written,
    action (m.showing written) = (a, next.showing (written ++ printed))

/-- The native functions treat output in this way. -/
def Host.Appends (host : Host) : Prop :=
  ∀ name native, host name = some native → ∀ args site, Eval.Appends (native args site)

/-- How an action ends, and what it prints, is the same wherever the text goes. -/
theorem Appends.apply {action : Machine → α × Machine} (appends : Appends action)
    (unlimited : m.sink.room = none) :
    (action m).2.sink.room = none ∧ ∀ written, action (m.showing written) =
      ((action m).1, (action m).2.showing (written ++ m.printedSince (action m).2)) := by
  obtain ⟨a, next, printed, same⟩ := appends m
  have run := same m.sink.written
  rw [Machine.showing_self unlimited] at run
  have said := Machine.printedSince_showing (m := m) next m.sink.written printed
  rw [Machine.showing_self unlimited] at said
  rw [run, said]
  exact ⟨rfl, same⟩

theorem appends_of_silent {action : Machine → α × Machine}
    (silent : ∀ m written,
      action (m.showing written) = ((action m).1, (action m).2.showing written)) :
    Appends action := by
  intro m
  refine ⟨(action m).1, (action m).2, "", fun written => ?_⟩
  rw [silent, String.append_empty]

theorem Appends.map {action : Machine → α × Machine} (appends : Appends action) (f : α → β) :
    Appends fun m => (f (action m).1, (action m).2) := by
  intro m
  obtain ⟨a, next, printed, same⟩ := appends m
  refine ⟨f a, next, printed, fun written => ?_⟩
  simp only [same]

namespace Run

theorem appends_bind {first : Run α} {second : α → Run β} (h : Appends first)
    (then_ : ∀ a, Appends (second a)) : Appends (first >>= second) := by
  intro m
  obtain ⟨outcome, next, printed, same⟩ := h m
  cases outcome with
  | value a =>
    obtain ⟨outcome', next', printed', same'⟩ := then_ a next
    refine ⟨outcome', next', printed ++ printed', fun written => ?_⟩
    rw [bind_of_value (same written), same', String.append_assoc]
  | failure e => exact ⟨_, next, printed, fun written => bind_of_failure (same written)⟩
  | unfinished => exact ⟨_, next, printed, fun written => bind_of_unfinished (same written)⟩

theorem appends_get (scope : ScopeId) (name : String) (span : Span) :
    Appends (get scope name span) := by
  refine appends_of_silent fun m written => ?_
  simp only [get, Machine.showing]
  cases m.store.get scope name <;> rfl

theorem appends_updateStore (span : Span) (fault? : Store → Option ScopeFault)
    (change : Store → Store) : Appends (updateStore span fault? change) := by
  refine appends_of_silent fun m written => ?_
  simp only [updateStore, Machine.showing]
  cases fault? m.store <;> rfl

theorem appends_compositional :
    Compositional fun α (run : Unit → Run α) => Appends (run ()) where
  pure _ := appends_of_silent fun _ _ => rfl
  fail _ _ := appends_of_silent fun _ _ => rfl
  unfinished := appends_of_silent fun _ _ => rfl
  newScope _ := appends_of_silent fun _ _ => rfl
  newIdentity := appends_of_silent fun _ _ => rfl
  get := appends_get
  declare _ _ _ _ span := appends_updateStore span _ _
  assign _ _ _ span := appends_updateStore span _ _
  bind := appends_bind

end Run

variable {host : Host}

theorem callNative_appends (appends : host.Appends) (name : String) (args : List Value)
    (site : ScopeId) (span : Span) : Appends (callNative host name args site span) := by
  unfold callNative
  cases known : host name with
  | none => exact appends_of_silent fun _ _ => rfl
  | some native =>
    intro m
    obtain ⟨answer, next, printed, same⟩ := appends name native known args site m
    cases answer with
    | ok value =>
      refine ⟨.value value, next, printed, fun written => ?_⟩
      simp only [same]
    | error cause =>
      refine ⟨.failure ⟨cause, span⟩, next, printed, fun written => ?_⟩
      simp only [same]

theorem Native.print_appends (args : List Value) (site : ScopeId) :
    Appends (Native.print args site) := by
  intro m
  refine ⟨.ok .null, m, String.join (Native.pieces args), fun written => ?_⟩
  exact Native.print_of_writeAll args site (m.showing written)
    (Sink.writeAll_unlimited (Native.pieces args))

theorem Host.OnlyPrints.appends (prints : host.OnlyPrints) : host.Appends := by
  intro name native known args site
  obtain rfl := prints name native known
  exact Native.print_appends args site

end Eval

namespace Setup

open Eval

theorem evalSource_appends {setup : Setup} (appends : setup.host.Appends) (scope : ScopeId)
    (source : String) : Appends (setup.evalSource scope source) := by
  unfold evalSource
  cases parseSource source with
  | error diagnostic => exact appends_of_silent fun _ _ => rfl
  | ok program =>
    have run := @Compositional.evalProgram _ _ (fun _ => setup.host) Run.appends_compositional
      (callNative_appends appends) setup.depth scope program
    exact run.map (Outcome.mapError Fault.diagnostic)

end Setup

end Scriptlet
