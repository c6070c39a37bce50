import Scriptlet.Interpreter
import Scriptlet.Proofs.Eval.Accord
import Scriptlet.Proofs.Eval.Moved

/-!
# Runs side by side

The same program in two places, on two machines that are the same but for places: evaluation copies
spans into its faults and into the bodies of functions, and looks at them nowhere else. So both runs
end alike, provided that native functions do not look at spans either (`Eval.sideBySide`).
-/
namespace Scriptlet

/-- The same words about other characters. -/
structure Diagnostic.Moved (S : Span → Span → Prop) (d e : Diagnostic) : Prop where
  words_eq : e = d.moveTo e.span
  place : S d.span e.span

/-- Two ends that are the same but for places: related failures or results, and moved machines. -/
structure EndMoved {ε ε' α β : Type} (S T : Span → Span → Prop) (failures : ε → ε' → Prop)
    (results : α → β → Prop) (x : Outcome ε α × Machine) (y : Outcome ε' β × Machine) : Prop where
  outcome : x.1.Matches failures results y.1
  machine : x.2.Moved S T y.2

namespace Eval

/-- A native function that does not look at spans: from the same but for places it comes to the same
but for places. -/
def Native.Blind (S T : Span → Span → Prop) (native : Native) : Prop :=
  ∀ args others scope m n, List.Forall₂ (Value.Moved S T) args others → m.Moved S T n →
    (Outcome.ofExcept (native args scope m).1).Matches Eq (Value.Moved S T)
      (Outcome.ofExcept (native others scope n).1) ∧
    (native args scope m).2.Moved S T (native others scope n).2

/-- No native function looks at spans. -/
def Host.Blind (S T : Span → Span → Prop) (host : Host) : Prop :=
  ∀ name native, host name = some native → native.Blind S T

variable {S T : Span → Span → Prop}

/-- Two runs on moved machines: the scopes and the identities are the same on both. -/
def sideBySide {host : Host} (blind : host.Blind S T) : Accord host S T where
  World := Unit
  Later _ _ := True
  Alike _ := Machine.Moved S T
  Sees _ := Eq
  Owns _ := Eq
  Sites _ := Eq
  Has _ := Value.Moved S T
  refl _ := trivial
  trans _ _ := trivial
  sees_later _ same := same
  owns_later _ same := same
  has_later _ moved := moved
  sees_of_owns same := same
  sites_of_sees same := same
  plain := Value.moved_plain
  resembles := Value.Moved.resembles
  strictEqual_eq := Value.Moved.strictEqual_eq
  bound machines same name :=
    optionRel_mono (same ▸ machines.store.lookup? _ name) fun _ _ => Binding.Moved.value
  newScope machines same :=
    have made := machines.newScope (some _)
    ⟨(), trivial, same ▸ made.2, same ▸ made.1⟩
  newObject machines members :=
    have given := machines.newIdentity
    ⟨(), trivial, given.2, given.1 ▸ .object (movedEntries_of_alike members)⟩
  newFunction _ _ machines same bodies :=
    have given := machines.newIdentity
    ⟨(), trivial, given.2, given.1 ▸ same ▸ .function bodies⟩
  declare name constant machines same value :=
    ⟨same ▸ machines.store.declareFault?_eq _ name,
      same ▸ machines.store.bind _ name value constant, machines.nextIdentity_eq, machines.sink_eq⟩
  assign name machines same value :=
    ⟨same ▸ machines.store.assignFault?_eq _ name, same ▸ machines.store.set _ name value,
      machines.nextIdentity_eq, machines.sink_eq⟩
  native known machines _ args same :=
    have ended := blind _ _ known _ _ _ _ _ args machines
    ⟨(), trivial, same ▸ ended.2, same ▸ ended.1⟩

/-- The text of a line that is printed shows no places. -/
theorem blind_standard : Host.standard.Blind S T := by
  intro name native known
  unfold Host.standard at known
  split at known <;> cases known
  intro args others scope m n same machines
  have texts : args.map Value.render = others.map Value.render :=
    Value.renders_eq same Value.Moved.render_eq
  simp only [Native.print, texts, machines.sink_eq]
  refine ⟨?_, machines.store, machines.nextIdentity_eq, rfl⟩
  split
  · exact .value .null
  · exact .failure rfl

end Eval

/-- A program in two places ends alike on moved machines. -/
theorem Setup.evalProgram_parallel {S T : Span → Span → Prop} {setup : Setup}
    (blind : setup.host.Blind S T) (scope : ScopeId) {program other : Program}
    (moved : program.Moved S T other) {m n : Machine} (machines : m.Moved S T n) :
    EndMoved S T (Diagnostic.Moved S) (Value.Moved S T) (setup.evalProgram scope program m)
      (setup.evalProgram scope other n) := by
  have same : (Eval.sideBySide blind).Owns () scope scope := rfl
  obtain ⟨_, _, machines', outcomes⟩ :=
    Eval.evalProgram_agrees _ setup.depth moved same m n machines
  refine ⟨outcomes.mapError ?_, machines'⟩
  rintro ⟨cause, span⟩ ⟨_, span'⟩ ⟨rfl, place⟩
  exact ⟨rfl, place⟩

end Scriptlet
