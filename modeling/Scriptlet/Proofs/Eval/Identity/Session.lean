import Scriptlet.Proofs.Eval.Acquaintance
import Scriptlet.Proofs.Eval.ConstantLaw
import Scriptlet.Proofs.Eval.Identity.Recording
import Scriptlet.Proofs.Interpreter.Stages

/-!
# Identities in a session

In every session from a new global scope the identity of an object or of a function tells which
evaluation of an object literal or of a declaration made it. So `==` holds between the aliases of an
object, wherever they are found, and between nothing else (`identities_trustworthy`).
-/
namespace Scriptlet

namespace Eval

/-- Identities tell objects and functions apart, wherever and whenever they are found. -/
structure Trustworthy (J : List Entry) : Prop where
  /-- What can be found was made by one evaluation. -/
  origin : ∀ e ∈ J, ∀ v, e.Shows v → v.IsMade → ∃! i, Origin J i v
  /-- Equality tells whether it was the same one. -/
  equal_iff : ∀ e ∈ J, ∀ v, e.Shows v → v.IsMade → ∀ f ∈ J, ∀ w, f.Shows w →
    (v.strictEqual w = true ↔ ∃ i, Origin J i v ∧ Origin J i w)
  /-- What has the same identity has the same content. -/
  content : ∀ e ∈ J, ∀ v, e.Shows v → v.IsMade → ∀ f ∈ J, ∀ w, f.Shows w →
    v.identity? = w.identity? → v = w
  /-- What is made has an identity that nothing has that can be found up to then. -/
  fresh : ∀ (i : Nat) node v before, J[i]? = some (.made node v before) →
    ∀ j ≤ i, ∀ e, J[j]? = some e → ∀ w, e.Shows w → w.identity? ≠ v.identity?

theorem Sound.trustworthy {printId : Identity} {J : List Entry} (sound : Sound printId J) :
    Trustworthy J where
  origin e member v shows made := by
    obtain ⟨i, origin⟩ := sound.exists_origin (sound.known_of_mem member shows) made
    exact ⟨i, origin, fun j other => (sound.origin_unique other origin rfl).1⟩
  equal_iff e member v shows made f other w shown := by
    constructor
    · intro equal
      have same := Value.identity?_eq_of_strictEqual made equal
      obtain ⟨i, origin⟩ := sound.exists_origin (sound.known_of_mem member shows) made
      obtain rfl := sound.eq_of_identity origin (sound.known_of_mem other shown) same
      exact ⟨i, origin, origin⟩
    · rintro ⟨i, of_v, of_w⟩
      obtain rfl := of_v.eq of_w
      exact Value.strictEqual_self made
  content e member v shows made f other w shown same := by
    obtain ⟨i, origin⟩ := sound.exists_origin (sound.known_of_mem member shows) made
    exact sound.eq_of_identity origin (sound.known_of_mem other shown) same
  fresh i node v before made j earlier e stands w shows := sound.fresh made earlier stands shows

/-- Nothing can be found at first but the words for values and `print`. -/
theorem agrees_initial : Agrees 0 [] Machine.initial.newGlobalScope.2 where
  sound := sound_nil
  bound id name binding bound := by
    obtain rfl : id = 0 := Nat.lt_one_iff.mp (Store.lt_size_of_find? bound)
    have same := scope_newGlobalScope Machine.initial
    rcases globalBindings_cases (same ▸ bound) with none | print
    · exact .plain none
    · rw [print]
      exact .print
  below v id known own := by
    cases known with
    | plain none => cases none.symm.trans own
    | print =>
      cases own
      exact Nat.one_pos
    | made member => cases member
  counted := rfl

end Eval

namespace Setup

open Eval

variable {setup : Setup} {printId : Identity} {J : List Entry} {m : Machine}

theorem logSource_agrees (prints : setup.host.OnlyPrints) (scope : ScopeId) (source : String)
    (agrees : Agrees printId J m) :
    Agrees printId (J ++ setup.logSource scope source m) (setup.evalSource scope source m).2 := by
  unfold logSource evalSource
  cases parseSource source with
  | error d => exact agrees.ended nofun
  | ok program =>
    have records : Records printId J (Known printId)
        (Eval.evalProgram setup.host setup.depth scope program)
        (logProgram setup.host setup.depth scope program) :=
      logSequence_records (logInvoke_records prints setup.depth) scope program (.plain rfl)
    obtain ⟨still, value⟩ := records m agrees
    rw [← List.append_assoc]
    exact still.ended fun v given => value v (Outcome.mapError_eq_value.mp given)

theorem logSession_agrees (prints : setup.host.OnlyPrints) (session : List (ScopeId × String))
    (agrees : Agrees printId J m) :
    Agrees printId (J ++ setup.logSession session m) (setup.afterSession session m) := by
  induction session generalizing J m with
  | nil => exact agrees.seen (List.forall_mem_nil _)
  | cons entry rest ih =>
    obtain ⟨scope, source⟩ := entry
    rw [logSession, ← List.append_assoc]
    exact ih (logSource_agrees prints scope source agrees)

theorem mem_logSession (session : List (ScopeId × String)) (m : Machine) :
    .seen [] (setup.afterSession session m) ∈ setup.logSession session m := by
  induction session generalizing m with
  | nil => exact List.mem_singleton_self _
  | cons entry rest ih => exact List.mem_append_right _ (ih _)

/-- **Identities are sound in every session.** Whatever sources are evaluated from a new global
scope, and however each of them ends, identities tell objects and functions apart in all that the
journal tells of, the state at the end included. The journal leaves out no evaluation that gives out
an identity: it lists all of them, in their order. -/
theorem identities_trustworthy (depth : Nat) (session : List (ScopeId × String)) :
    let setup : Setup := ⟨.standard, depth⟩
    let machine := Machine.initial.newGlobalScope.2
    let after := setup.afterSession session machine
    let J := setup.logSession session machine
    Trustworthy J ∧ .seen [] after ∈ J ∧
      J.filterMap Entry.given? = List.range' 1 (after.nextIdentity - 1) := by
  intro setup machine after J
  have agrees : Agrees 0 J after :=
    logSession_agrees Host.onlyPrints_standard session agrees_initial
  exact ⟨agrees.sound.trustworthy, mem_logSession session machine, agrees.counted⟩

/-- A function and the objects that two calls of it make out of one literal. -/
example :
    (Setup.standard.logSession [(0, "fn f() { {} }"), (0, "let a = f() a == f()")]
      Machine.initial.newGlobalScope.2).filterMap Entry.given? = [1, 2, 3] := by
  decide +kernel

end Setup

end Scriptlet
