import Scriptlet.Proofs.Eval.Acquaintance

/-!
# Names that no code assigns

Declarations, parameters and blocks bind a name anew in a scope of their own, and a binding that is
there keeps its value until some assignment to its name. Where neither a program nor a function that
it can reach assigns to a name, the program changes no binding of it, in any scope
(`unassigned_stays`). The native functions have to play their part: they may neither change such a
binding nor bring a function that assigns to the name, and it is not enough that they leave all
bindings alone (`assigned_through_native`).
-/
namespace Scriptlet

/-- An assignment to a name. -/
def Node.AssignsTo (x : String) : Node → Prop
  | .expr (.assign (.name y _) _ _) => y = x
  | _ => False

/-- Somewhere in a program stands an assignment to a name. -/
def Program.Assigns (program : Program) (x : String) : Prop :=
  ∃ node, program.HasNode node ∧ node.AssignsTo x

theorem Program.not_assigns_iff {program : Program} {x : String} : ¬program.Assigns x ↔
    ∀ s ∈ program, (Node.stmt s).Throughout fun node => ¬node.AssignsTo x := by
  constructor
  · intro free s member part holds assigns
    exact free ⟨part, ⟨s, member, holds⟩, assigns⟩
  · rintro free ⟨node, ⟨s, member, holds⟩, assigns⟩
    exact free s member node holds assigns

namespace Store

variable {before middle after store : Store} {x : String}

/-- The value that a name has in a scope, if that scope itself binds it. -/
def value? (store : Store) (id : ScopeId) (name : String) : Option Value :=
  ((store.scope id).find? name).map (·.value)

/-- Every binding of a name, in whatever scope, is still there and has the value that it had. -/
def KeepsValues (x : String) (before after : Store) : Prop :=
  ∀ id v, before.value? id x = some v → after.value? id x = some v

theorem KeepsValues.refl (store : Store) : store.KeepsValues x store := fun _ _ bound => bound

theorem KeepsValues.trans (first : before.KeepsValues x middle)
    (second : middle.KeepsValues x after) : before.KeepsValues x after :=
  fun id v bound => second id v (first id v bound)

theorem keepsValues_create (parent : Option ScopeId) :
    store.KeepsValues x (store.create parent).2 := by
  intro id v bound
  obtain ⟨binding, found, rfl⟩ := Option.map_eq_some_iff.mp bound
  have made := lt_size_of_find? found
  rw [value?, scope_create, if_neg (Nat.ne_of_lt made), found]
  rfl

theorem keepsValues_modify {owner : ScopeId} {change : Scope → Scope}
    (kept : ∀ scope binding, scope.find? x = some binding → (change scope).find? x = some binding) :
    store.KeepsValues x (store.modify owner change) := by
  intro id v bound
  obtain ⟨binding, found, rfl⟩ := Option.map_eq_some_iff.mp bound
  have same : ((store.modify owner change).scope id).find? x = some binding := by
    by_cases changed : id = owner
    · subst changed
      rw [scope_modify _ _ _ _ (lt_size_of_find? found), if_pos rfl]
      exact kept _ binding found
    · rw [scope_modify_of_ne _ changed, found]
  rw [value?, same]
  rfl

/-- A binding that is added stands behind the others, and hides none of them. -/
theorem keepsValues_bind (id : ScopeId) (name : String) (v : Value) (constant : Bool) :
    store.KeepsValues x (store.bind id name v constant) := by
  apply keepsValues_modify
  intro scope binding found
  rw [Scope.find?_add, found, Option.some_or]

theorem keepsValues_set {name : String} (other : name ≠ x) (id : ScopeId) (v : Value) :
    store.KeepsValues x (store.set id name v) := by
  unfold set
  split
  · exact .refl store
  · apply keepsValues_modify
    intro scope binding found
    rw [Scope.find?_update, if_neg (Ne.symm other), found]

end Store

namespace Eval

open Store

/-- The native functions change no binding of a name, and bring no function that assigns to it. -/
structure Host.Spares (host : Host) (x : String) : Prop where
  keeps : ∀ name native, host name = some native → ∀ args site (m : Machine),
    m.store.KeepsValues x (native args site m).2.store
  brings : host.BringsOnly fun closure => ¬Program.Assigns closure.body x

variable {host : Host} {x : String}

theorem Host.OnlyPrints.spares (prints : host.OnlyPrints) (x : String) : host.Spares x where
  keeps name native known args site m := by
    obtain rfl := prints name native known
    exact .refl m.store
  brings := prints.bringsOnly _

/-- A native function that leaves the scopes alone, and makes a function that assigns to `x`, as if
it were declared in the scope of the call. -/
def Native.setter : Native := fun _ site machine =>
  let (id, machine) := machine.newIdentity
  let assignment : Expr := .assign (.name "x" ⟨0, 1⟩) (.text "new" ⟨4, 9⟩) ⟨0, 9⟩
  (.ok (.function id ⟨"set", [], [.expr assignment ⟨0, 9⟩], site⟩), machine)

/-- Code without assignments to a name makes no function that assigns to it. -/
def unassigning (x : String) : Circle fun node => ¬node.AssignsTo x where
  Knows closure := ¬Program.Assigns closure.body x
  body free := Program.not_assigns_iff.mp free
  declared scope code := by
    rintro ⟨part, ⟨s, member, holds⟩, assigns⟩
    exact code part (.head (.body member) holds) assigns

/-- Only assignments to a name change its bindings. -/
def Host.Spares.frame (spares : host.Spares x) : Frame host fun node => ¬node.AssignsTo x where
  Stays m n := m.store.KeepsValues x n.store
  refl m := .refl m.store
  trans := .trans
  newScope _ parent := keepsValues_create (some parent)
  newIdentity m := .refl m.store
  declare v constant _ := keepsValues_bind _ _ v constant
  assign v permitted _ := keepsValues_set permitted _ v
  native known := spares.keeps _ _ known

end Eval

namespace Setup

open Eval

/-- **A variable changes only if some code assigns to its name.** Where no assignment to `x` stands
in a program, or in the body of a function that can be reached from its scope, every binding of `x`
keeps its value, however the program ends. That takes native functions that change no binding of `x`
themselves and bring no function whose body assigns to it (`Host.Spares`). -/
theorem unassigned_stays (setup : Setup) {x : String} (spares : setup.host.Spares x)
    (env : ScopeId) (program : Program) (machine : Machine) (unassigned : ¬program.Assigns x)
    (elsewhere : ∀ id closure,
      machine.store.Reachable (· = .scope env) (.value (.function id closure)) →
        ¬Program.Assigns closure.body x) :
    machine.store.KeepsValues x (setup.evalProgram env program machine).2.store := by
  have kept := evalProgram_acquainted (unassigning x) spares.brings spares.frame setup.depth
    (Program.not_assigns_iff.mp unassigned) elsewhere
  exact kept.future.2

/-- A function with a parameter `print`, and in its body a block with a variable of this name: after
a call of it the global `print` is what it was. -/
theorem unassigned_stays_parameter :
    Setup.standard.host.Spares "print" ∧
      let machine := Machine.initial.newGlobalScope.2
      let program : Program :=
        [.function "f" ["print"]
          [.branch (.name "true" ⟨18, 22⟩)
            [.declare "print" false (some (.name "print" ⟨38, 43⟩)) ⟨26, 43⟩] [] none ⟨14, 45⟩]
          ⟨0, 47⟩,
         .expr (.call (.name "f" ⟨48, 49⟩) [.text "new" ⟨50, 55⟩] ⟨48, 56⟩) ⟨48, 56⟩]
      let run := Setup.standard.evalProgram 0 program machine
      run.1 = .value (.text "new") ∧
        run.2.store.value? 0 "print" = some (.native 0 "print") := by
  have spares := Host.onlyPrints_standard.spares "print"
  refine ⟨spares, ?_⟩
  intro machine program run
  have leaf : ∀ e : Expr, ¬(Node.expr e).AssignsTo "print" → (∀ part, ¬(Node.expr e).Child part) →
      (Node.expr e).Throughout fun node => ¬node.AssignsTo "print" :=
    fun e own none => Node.throughout_of own fun part child => absurd child (none part)
  have free : ∀ s ∈ program, (Node.stmt s).Throughout fun node => ¬node.AssignsTo "print" := by
    refine List.forall_mem_cons.mpr ⟨Node.throughout_of id ?_, List.forall_mem_singleton.mpr
      (Node.throughout_of id ?_)⟩
    · intro part child
      cases child with
      | body member =>
        obtain rfl := List.mem_singleton.mp member
        refine Node.throughout_of id fun part child => ?_
        cases child with
        | condition => exact leaf _ id nofun
        | branch member =>
          obtain rfl := List.mem_singleton.mp member
          refine Node.throughout_of id fun part child => ?_
          cases child
          exact leaf _ id nofun
        | guard other => cases other
        | alternative other => cases other
    · intro part child
      cases child
      refine Node.throughout_of id fun part child => ?_
      cases child with
      | callee => exact leaf _ id nofun
      | arg member =>
        obtain rfl := List.mem_singleton.mp member
        exact leaf _ id nofun
  have unassigned : ¬program.Assigns "print" := Program.not_assigns_iff.mpr free
  have elsewhere : machine.store.Familiar (fun _ => False) (.scope 0) :=
    familiar_newGlobalScope Machine.initial
  have law := unassigned_stays Setup.standard spares 0 program machine unassigned
    fun id closure reached => (elsewhere id closure reached).elim
  exact ⟨rfl, law 0 _ rfl⟩

/-- **Native functions that leave all bindings alone are not enough.** A program that assigns to
nothing, in a scope from which no declared function can be reached, changes `x`: it calls the
function that a native function makes. -/
theorem assigned_through_native :
    let host : Host := fun name => if name = "setter" then some Native.setter else none
    let before := Machine.initial.newGlobalScope.2
    let machine : Machine := { before with
      store := (before.store.bind 0 "x" (.text "old") false).bind 0 "setter" (.native 1 "setter") true
      nextIdentity := 2 }
    let program : Program :=
      [.expr (.call (.call (.name "setter" ⟨0, 6⟩) [] ⟨0, 8⟩) [] ⟨0, 10⟩) ⟨0, 10⟩]
    let run := Setup.evalProgram ⟨host, Setup.standard.depth⟩ 0 program machine
    (∀ name native, host name = some native → ∀ args site (m : Machine),
      (native args site m).2.store = m.store) ∧
    ¬program.Assigns "x" ∧
    (∀ id closure, ¬machine.store.Reachable (· = .scope 0) (.value (.function id closure))) ∧
    machine.store.value? 0 "x" = some (.text "old") ∧
    run.1 = .value (.text "new") ∧ run.2.store.value? 0 "x" = some (.text "new") ∧
    ¬machine.store.KeepsValues "x" run.2.store := by
  intro host before machine program run
  have leaves : ∀ name native, host name = some native → ∀ args site (m : Machine),
      (native args site m).2.store = m.store := by
    intro name native known args site m
    simp only [host] at known
    split at known <;> cases known
    rfl
  have unassigned : ¬program.Assigns "x" := by
    refine Program.not_assigns_iff.mpr (List.forall_mem_singleton.mpr (Node.throughout_of id ?_))
    intro call child
    cases child
    refine Node.throughout_of id fun inner child => ?_
    cases child with
    | arg member => cases member
    | callee =>
      refine Node.throughout_of id fun name child => ?_
      cases child with
      | arg member => cases member
      | callee => exact Node.throughout_of id nofun
  have unknown : machine.store.Familiar (fun _ => False) (.scope 0) :=
    ((familiar_newGlobalScope Machine.initial).bind (Store.familiar_plain rfl) 0 "x" false).bind
      (Store.familiar_of_next nofun nofun) 0 "setter" true
  have old : machine.store.value? 0 "x" = some (.text "old") := rfl
  have new : run.2.store.value? 0 "x" = some (.text "new") := rfl
  refine ⟨leaves, unassigned, unknown, old, rfl, new, fun keeps => ?_⟩
  have same := new.symm.trans (keeps 0 _ old)
  simp at same

end Setup

end Scriptlet
