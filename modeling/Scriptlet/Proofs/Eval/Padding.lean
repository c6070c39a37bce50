import Scriptlet.Proofs.Eval.Accord
import Scriptlet.Proofs.Eval.Diagnosis
import Scriptlet.Proofs.Padding.Store

/-!
# Runs on machines with one more scope

The same program on two machines, one of which has an additional scope, ends alike on both: a scope
without names is noticed by nothing but a declaration in it, and programs declare in twins only
(`Eval.padding`). Native functions have to play their part (`Host.Ignores`).
-/
namespace Scriptlet

namespace Pad

/-- Scopes that were made and from which the same is seen. -/
structure Site (pad : Pad) (made : Nat) (a b : ScopeId) : Prop where
  made : a < made
  sees : pad.Sees a b

/-- A scope that was made, and its twin. -/
structure Twins (pad : Pad) (made : Nat) (a b : ScopeId) : Prop where
  made : a < made
  past_eq : b = pad.past a

/-- Two runs ended alike: with the same failure or related results, on machines that are the same
but for the additional scope. The first machine had `made` scopes or more from the start. -/
structure RelatesEnds {ε α β : Type} (pad : Pad) (related : Nat → α → β → Prop) (made : Nat)
    (x : Outcome ε α × Machine) (y : Outcome ε β × Machine) : Prop where
  machines : pad.Relates x.2 y.2
  grown : made ≤ x.2.store.scopes.size
  outcomes : Outcome.Rel (related x.2.store.scopes.size) x.1 y.1

variable {pad : Pad} {made later : Nat} {a b : ScopeId}

theorem Site.mono (site : pad.Site made a b) (grown : made ≤ later) : pad.Site later a b :=
  ⟨Nat.lt_of_lt_of_le site.made grown, site.sees⟩

theorem Twins.mono (twins : pad.Twins made a b) (grown : made ≤ later) : pad.Twins later a b :=
  ⟨Nat.lt_of_lt_of_le twins.made grown, twins.past_eq⟩

theorem Twins.site (twins : pad.Twins made a b) : pad.Site made a b :=
  ⟨twins.made, .inl twins.past_eq⟩

/-- Values that are the same on both machines are of one kind, and functions have the same bodies. -/
theorem RelatesValue.resembles {bodies : List Stmt → List Stmt → Prop}
    (refl : ∀ body, bodies body body) {v w : Value} (h : pad.RelatesValue made v w) :
    v.Resembles (pad.Site made) (pad.RelatesValue made) bodies w := by
  obtain ⟨rfl, within⟩ := h
  cases v with
  | number | text | boolean | null => exact .plain rfl
  | object id entries =>
    have inside := Value.within_object.mp within
    exact .object (Value.alike_rescopeEntries fun entry member => ⟨rfl, inside entry member⟩)
  | function id closure =>
    exact .function ⟨Value.within_function.mp within, .inl rfl⟩ (refl _)
  | native => exact .native

theorem RelatesValue.render_eq {v w : Value} (h : pad.RelatesValue made v w) :
    v.render = w.render :=
  Value.render_eq_of_resembles (RelatesValue.resembles (Eq.refl ·)) h

end Pad

namespace Eval

/-- A native function that neither looks at the names of the scope of its call nor declares any: the
additional scope makes no difference to it. -/
def Native.Ignores (pad : Pad) (native : Native) : Prop :=
  ∀ m n args others site site', pad.Relates m n →
    List.Forall₂ (pad.RelatesValue m.store.scopes.size) args others →
      pad.Site m.store.scopes.size site site' →
        let x := native args site m
        let y := native others site' n
        pad.RelatesEnds pad.RelatesValue m.store.scopes.size (Outcome.ofExcept x.1, x.2)
          (Outcome.ofExcept y.1, y.2)

def Host.Ignores (pad : Pad) (host : Host) : Prop :=
  ∀ name native, host name = some native → native.Ignores pad

open Pad

variable {host : Host} {pad : Pad} {made : Nat} {a b : ScopeId}

/-- Two runs on machines with and without the additional scope. They know of the scopes that were
made so far. -/
def padding (ignores : host.Ignores pad) : Accord host Eq Eq where
  World := Nat
  Later made later := made ≤ later
  Alike made m n := pad.Relates m n ∧ m.store.scopes.size = made
  Sees := pad.Site
  Owns := pad.Twins
  Sites := pad.Site
  Has := pad.RelatesValue
  refl := Nat.le_refl
  trans := Nat.le_trans
  sees_later grown site := site.mono grown
  owns_later grown twins := twins.mono grown
  has_later grown value := value.mono grown
  sees_of_owns := Twins.site
  sites_of_sees site := site
  plain := relatesValue_plain
  resembles := RelatesValue.resembles movedStmts_refl
  strictEqual_eq := by
    rintro _ v _ w _ ⟨rfl, -⟩ ⟨rfl, -⟩
    exact (Value.strictEqual_rescope v w).symm
  bound := by
    rintro _ m n a b ⟨machines, rfl⟩ site name
    rw [machines.store.lookup?_eq site.sees name]
    cases found : m.store.lookup? a name with
    | none => exact .none
    -- In a closed store what a name is bound to leads to scopes that were made.
    | some binding => exact .some ⟨rfl, machines.store.closed.lookup? found⟩
  newScope := by
    rintro _ m n a b ⟨machines, rfl⟩ site
    have stores := machines.store.create site.sees site.made
    have size_eq := Store.size_create m.store (some a)
    refine ⟨_, Nat.le_succ _, ⟨machines.withStore stores, size_eq⟩, Nat.lt_succ_self _, ?_⟩
    -- The next scopes are twins: the one machine has one more already.
    exact machines.store.size_eq.trans (past_of_le machines.store.made).symm
  newObject := by
    rintro made m n entries others ⟨machines, size_eq⟩ members
    obtain ⟨same, given⟩ := machines.newIdentity
    rw [← same]
    exact ⟨made, Nat.le_refl _, ⟨given, size_eq⟩, relatesValue_object members⟩
  newFunction := by
    rintro made m n a _ body other name params ⟨machines, size_eq⟩ ⟨among, rfl⟩ bodies
    obtain rfl := bodies.eq
    obtain ⟨same, given⟩ := machines.newIdentity
    rw [← same]
    exact ⟨made, Nat.le_refl _, ⟨given, size_eq⟩, rfl, Value.within_function.mpr among⟩
  declare := by
    rintro _ m n a _ v w name constant ⟨machines, rfl⟩ ⟨-, rfl⟩ value
    have stores := machines.store.bind a name value constant
    exact ⟨(machines.store.declareFault?_eq a name).symm, machines.withStore stores,
      Store.size_modify m.store _ _⟩
  assign := by
    rintro _ m n a b v w name ⟨machines, rfl⟩ site value
    have stores := machines.store.set site.sees name value
    exact ⟨(machines.store.assignFault?_eq site.sees name).symm, machines.withStore stores,
      Store.size_set _ _ _⟩
  native := by
    rintro _ m n a b _ _ name native args others known ⟨machines, rfl⟩ - same site
    obtain ⟨machines', grown, outcomes⟩ := ignores name native known m n _ _ a b machines same site
    exact ⟨_, grown, ⟨machines', rfl⟩, outcomes.matches fun _ => rfl⟩

section
variable {ignores : host.Ignores pad} {α β : Type} {related : Nat → α → β → Prop}

/-- Ends in accord are ends that are alike. -/
theorem ends_padding_iff {x : Outcome (Located Fault) α × Machine}
    {y : Outcome (Located Fault) β × Machine} :
    (padding ignores).Ends related made x y ↔ pad.RelatesEnds related made x y := by
  constructor
  · rintro ⟨_, grown, ⟨machines, rfl⟩, outcomes⟩
    exact ⟨machines, grown, Outcome.matches_moved_iff.mp outcomes⟩
  · rintro ⟨machines, grown, outcomes⟩
    exact ⟨_, grown, ⟨machines, rfl⟩, Outcome.matches_moved_iff.mpr outcomes⟩

/-- Runs in accord end alike, also as seen from a time when fewer scopes were made. -/
theorem relatesEnds_of_agrees {p : Run α} {q : Run β} {m n : Machine} (machines : pad.Relates m n)
    (enough : made ≤ m.store.scopes.size)
    (agrees : (padding ignores).Agrees related m.store.scopes.size p q) :
    pad.RelatesEnds related made (p m) (q n) := by
  obtain ⟨machines', grown, outcomes⟩ := ends_padding_iff.mp (agrees m n ⟨machines, rfl⟩)
  exact ⟨machines', Nat.le_trans enough grown, outcomes⟩

end

/-- A line that is printed shows no scopes. -/
theorem Host.OnlyPrints.ignores {host : Host} (prints : host.OnlyPrints) (pad : Pad) :
    host.Ignores pad := by
  intro name native known m n args others site site' machines same _
  obtain rfl := prints name native known
  have texts : args.map Value.render = others.map Value.render :=
    Value.renders_eq same Pad.RelatesValue.render_eq
  simp only [Native.print, texts, machines.sink_eq]
  refine ⟨⟨machines.store, machines.nextIdentity_eq, rfl⟩, Nat.le_refl _, ?_⟩
  dsimp only
  split
  · exact .value (relatesValue_plain rfl)
  · exact .failure _

end Eval

/-- Ends that are alike are so also in the words that the user is told. -/
theorem Pad.RelatesEnds.conclude {α β : Type} {pad : Pad} {related : Nat → α → β → Prop}
    {made : Nat} {p : Eval.Run α} {q : Eval.Run β} {m n : Machine}
    (h : pad.RelatesEnds related made (p m) (q n)) :
    pad.RelatesEnds related made (Setup.conclude p m) (Setup.conclude q n) :=
  ⟨h.machines, h.grown, h.outcomes.mapError Eval.Fault.diagnostic⟩

/-- A program ends alike in twins. -/
theorem Setup.evalProgram_pads {setup : Setup} {pad : Pad} (ignores : setup.host.Ignores pad)
    {made : Nat} {a b : ScopeId} (twins : pad.Twins made a b) (program : Program) {m n : Machine}
    (machines : pad.Relates m n) (enough : made ≤ m.store.scopes.size) :
    pad.RelatesEnds pad.RelatesValue made (setup.evalProgram a program m)
      (setup.evalProgram b program n) := by
  have agrees := Eval.evalProgram_agrees (Eval.padding ignores) setup.depth
    (movedStmts_refl program) (twins.mono enough)
  exact (Eval.relatesEnds_of_agrees machines enough agrees).conclude

end Scriptlet
