import Scriptlet.Interpreter
import Scriptlet.Proofs.Eval.Accord

/-!
# Evaluation sees only what it can reach

A program that runs in related scopes of related machines ends alike on both, and so does a call of
related functions with related arguments, wherever the calls stand: the scope of a call is handed
on to native functions only, and `print` does not look at it (`Eval.locality`).
-/
namespace Scriptlet

namespace Eval

open Renaming

variable {host : Host} {ρ : Renaming} {m n : Machine} {a b : ScopeId}

/-- Related values are printed alike, and fail to be where there is no room. -/
theorem print_alike {args others : List Value} (machines : ρ.Relates m n)
    (same : List.Forall₂ ρ.RelatesValue args others) (a b : ScopeId) :
    let x := Native.print args a m
    let y := Native.print others b n
    ρ.Relates x.2 y.2 ∧ m.SaidAlike n x.2 y.2 ∧
      (Outcome.ofExcept x.1).Matches Eq ρ.RelatesValue (Outcome.ofExcept y.1) := by
  have texts : args.map Value.render = others.map Value.render :=
    Value.renders_eq same RelatesValue.render_eq
  obtain ⟨complete_eq, room_eq, said⟩ :=
    Sink.writeAll_alike [" ".intercalate (others.map Value.render), "\n"] machines.room_eq
  simp only [Native.print, texts, complete_eq]
  refine ⟨⟨machines.store, machines.given, room_eq⟩, said, ?_⟩
  split
  · exact .value .null
  · exact .failure rfl

/-- Two runs on machines that a renaming relates, with the same text printed since the machines `m₀`
and `n₀`. It does not matter where calls stand. -/
def locality (prints : host Native.printName = some Native.print) (m₀ n₀ : Machine) :
    Accord host Eq Eq where
  World := Renaming
  Later ρ σ := ρ ≤ σ
  Alike ρ m n := ρ.Relates m n ∧ m₀.SaidAlike n₀ m n
  Sees ρ := ρ.scopes.Pairs
  Owns ρ := ρ.scopes.Pairs
  Sites _ _ _ := True
  Has := RelatesValue
  refl := le_refl
  trans := le_trans
  sees_later extended := extended.1 _ _
  owns_later extended := extended.1 _ _
  has_later extended := RelatesValue.mono extended
  sees_of_owns pair := pair
  sites_of_sees _ := trivial
  plain := relatesValue_plain
  resembles := RelatesValue.resembles movedStmts_refl
  strictEqual_eq := RelatesValue.strictEqual_eq
  bound machines pair name :=
    optionRel_mono (machines.1.store.lookup? pair name) fun _ _ => RelatesBinding.value
  newScope machines pair :=
    ⟨_, le_withScope, ⟨⟨machines.1.store.create (.some pair), machines.1.given, machines.1.room_eq⟩,
      machines.2⟩, .inr ⟨rfl, rfl⟩⟩
  newObject machines members :=
    ⟨_, le_withIdentity, ⟨machines.1.newIdentity, machines.2⟩,
      .object (.inr ⟨rfl, rfl⟩) ((relatesEntries_of_alike members).mono le_withIdentity)⟩
  newFunction _ _ machines pair bodies :=
    ⟨_, le_withIdentity, ⟨machines.1.newIdentity, machines.2⟩,
      bodies.eq ▸ .function (.inr ⟨rfl, rfl⟩) pair⟩
  declare name constant machines pair value :=
    ⟨machines.1.store.declareFault?_eq pair name,
      ⟨machines.1.store.bind pair name value constant, machines.1.given, machines.1.room_eq⟩,
      machines.2⟩
  assign name machines pair value :=
    ⟨machines.1.store.assignFault?_eq pair name,
      ⟨machines.1.store.set pair name value, machines.1.given, machines.1.room_eq⟩, machines.2⟩
  native known machines function same _ := by
    -- Among related values `print` is the only native function.
    cases function
    obtain rfl := Option.some.inj (known.symm.trans prints)
    obtain ⟨related, said, outcomes⟩ := print_alike machines.1 same _ _
    exact ⟨_, le_refl _, ⟨related, machines.2.trans said⟩, outcomes⟩

theorem endAlike_of_ends {prints : host Native.printName = some Native.print} {α β : Type}
    {related : Relation α β} {x : Outcome (Located Fault) α × Machine}
    {y : Outcome (Located Fault) β × Machine} (h : (locality prints m n).Ends related ρ x y) :
    ∃ σ, EndAlike related ρ σ m n x y := by
  obtain ⟨σ, extended, machines, outcomes⟩ := h
  exact ⟨σ, extended, machines.1, Outcome.matches_moved_iff.mp outcomes, machines.2⟩

variable (prints : host Native.printName = some Native.print) (machines : ρ.Relates m n)
include prints machines

/-- A program ends alike in related scopes. -/
theorem evalProgram_local (depth : Nat) (pair : ρ.scopes.Pairs a b) (program : Program) :
    ∃ σ, EndAlike RelatesValue ρ σ m n (evalProgram host depth a program m)
      (evalProgram host depth b program n) :=
  endAlike_of_ends (evalProgram_agrees (locality prints m n) depth (movedStmts_refl program) pair
    m n ⟨machines, Machine.saidAlike_refl⟩)

/-- A call does not depend on where it stands. -/
theorem invoke_local (depth : Nat) {f g : Value} {args others : List Value}
    (functions : ρ.RelatesValue f g) (same : List.Forall₂ ρ.RelatesValue args others)
    (site site' : ScopeId) (span : Span) :
    ∃ σ, EndAlike RelatesValue ρ σ m n (invoke host depth f args site span m)
      (invoke host depth g others site' span n) :=
  endAlike_of_ends (invoke_agrees (locality prints m n) depth functions same trivial rfl m n
    ⟨machines, Machine.saidAlike_refl⟩)

end Eval

/-- Runs that end alike do so also in the words that the user is told. -/
theorem EndAlike.conclude {α β : Type} {related : Renaming.Relation α β} {ρ σ : Renaming}
    {m n : Machine} {p : Eval.Run α} {q : Eval.Run β} (h : EndAlike related ρ σ m n (p m) (q n)) :
    EndAlike related ρ σ m n (Setup.conclude p m) (Setup.conclude q n) :=
  ⟨h.extended, h.machines, h.outcomes.mapError Eval.Fault.diagnostic, h.said⟩

namespace Setup

open Renaming

/-- Evaluation depends only on what can be reached from its scope, and a call only on what can be
reached from the function and the arguments. Where these parts of two machines are the same up to a
renaming, the same program ends with the same diagnostic or with related values, prints the same
text, and leaves the parts the same up to a renaming that extends the first. The sites of calls
are any two scopes. -/
theorem evaluation_local (setup : Setup)
    (prints : setup.host Eval.Native.printName = some Eval.Native.print) {ρ : Renaming}
    {m n : Machine} (machines : ρ.Relates m n) :
    (∀ env env', ρ.scopes.Pairs env env' → ∀ program : Program,
      let x := setup.evalProgram env program m
      let y := setup.evalProgram env' program n
      ∃ σ, EndAlike RelatesValue ρ σ m n x y ∧
        σ.PairsReachable x.2.store y.2.store env env') ∧
    ∀ f g args others, ρ.RelatesValue f g → List.Forall₂ ρ.RelatesValue args others →
      ∀ site site' span, ∃ σ, EndAlike RelatesValue ρ σ m n
        (conclude (Eval.invoke setup.host setup.depth f args site span) m)
        (conclude (Eval.invoke setup.host setup.depth g others site' span) n) := by
  constructor
  · intro env env' pair program
    obtain ⟨σ, ended⟩ := Eval.evalProgram_local prints machines setup.depth pair program
    have still : σ.scopes.Pairs env env' := ended.extended.1 _ _ pair
    exact ⟨σ, ended.conclude, ended.machines.store.pairsReachable still⟩
  · intro f g args others functions same site site' span
    obtain ⟨σ, ended⟩ :=
      Eval.invoke_local prints machines setup.depth functions same site site' span
    exact ⟨σ, ended.conclude⟩

/-- One machine has a global scope, the other an older one besides, in which `x` is something else.
A program that prints the `x` of its own scope through a function ends alike in both. -/
theorem evaluation_local_globals :
    Setup.standard.host Eval.Native.printName = some Eval.Native.print ∧
      let m := Machine.initial.newGlobalScope.2
      let n := (Setup.standard.evalSource 0 "let x = 1" m).2.newGlobalScope.2
      let program : Program :=
        [.declare "x" true (some (.text "seen" ⟨10, 16⟩)) ⟨0, 16⟩,
         .function "f" [] [.expr (.call (.name "print" ⟨26, 31⟩) [.name "x" ⟨32, 33⟩] ⟨26, 34⟩)
            ⟨26, 34⟩] ⟨17, 36⟩,
         .expr (.call (.name "f" ⟨37, 38⟩) [] ⟨37, 40⟩) ⟨37, 40⟩]
      ∃ ρ, ρ.Relates m n ∧ ρ.scopes.Pairs 0 1 ∧
        (∃ σ, EndAlike RelatesValue ρ σ m n (Setup.standard.evalProgram 0 program m)
          (Setup.standard.evalProgram 1 program n)) ∧
        (Setup.standard.evalProgram 1 program n).2.sink.written = "seen\n" := by
  obtain ⟨ρ, machines, pair⟩ := exists_relates_newGlobalScope (m := Machine.initial)
    (n := (Setup.standard.evalSource 0 "let x = 1" Machine.initial.newGlobalScope.2).2)
    (by decide +kernel)
  have first : Machine.initial.newGlobalScope.1 = 0 := rfl
  have second : (Setup.standard.evalSource 0 "let x = 1"
      Machine.initial.newGlobalScope.2).2.newGlobalScope.1 = 1 := by decide +kernel
  rw [first, second] at pair
  have law := evaluation_local Setup.standard rfl machines
  obtain ⟨σ, alike, -⟩ := law.1 0 1 pair _
  exact ⟨rfl, ρ, machines, pair, ⟨σ, alike⟩, by decide +kernel⟩

end Setup

end Scriptlet
