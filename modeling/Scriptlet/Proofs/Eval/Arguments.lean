import Mathlib.Data.List.Induction
import Mathlib.Data.List.TakeDrop
import Scriptlet.Interpreter

/-!
# Parameters and arguments

A call of a declared function makes one scope, inside that of its declaration, and binds the
parameters in it one by one. If they are all different that always succeeds, whatever the number of
arguments, and the body starts with exactly these bindings. If not, the first parameter that repeats
an earlier one ends the call: the scope that was made is left behind, and nothing else has changed
(`arguments_bound`).
-/
namespace Scriptlet

/-- The bindings of parameters: each has the argument in its place, or `null` if there is none. -/
def paramBindings (params : List String) (args : List Value) : List (String × Binding) :=
  params.mapIdx fun i param => (param, ⟨args.getD i .null, false⟩)

theorem paramBindings_cons (param : String) (params : List String) (args : List Value) :
    paramBindings (param :: params) args =
      (param, ⟨args.headD .null, false⟩) :: paramBindings params args.tail := by
  cases args <;> simp [paramBindings, List.mapIdx_cons]

theorem map_fst_paramBindings (params : List String) (args : List Value) :
    (paramBindings params args).map (·.1) = params := by
  induction params generalizing args with
  | nil => rfl
  | cons param params ih => rw [paramBindings_cons, List.map_cons, ih]

/-- Different parameters do not hide one another. -/
theorem lookup_paramBindings {params : List String} (distinct : params.Nodup) (args : List Value)
    {i : Nat} (inside : i < params.length) :
    (paramBindings params args).lookup params[i] = some ⟨args.getD i .null, false⟩ := by
  induction params generalizing args i with
  | nil => cases inside
  | cons param params ih =>
    obtain ⟨apart, distinct⟩ := List.nodup_cons.mp distinct
    rw [paramBindings_cons]
    cases i with
    | zero => cases args <;> simp
    | succ i =>
      have inside' : i < params.length := Nat.lt_of_succ_lt_succ inside
      have other : params[i] ≠ param := fun same => apart (same ▸ List.getElem_mem inside')
      rw [List.getElem_cons_succ, List.lookup_cons, beq_eq_false_iff_ne.mpr other]
      dsimp only
      rw [ih distinct args.tail inside']
      cases args <;> simp

namespace Scope

theorem binds_iff (scope : Scope) (name : String) :
    scope.binds name = true ↔ name ∈ scope.bindings.map (·.1) := by
  obtain ⟨bindings, parent⟩ := scope
  simp only [binds, find?]
  induction bindings with
  | nil => simp
  | cons entry rest ih =>
    obtain ⟨key, binding⟩ := entry
    by_cases same : name = key
    · simp [same]
    · simp [List.lookup_cons, same, beq_eq_false_iff_ne.mpr same, ih]

end Scope

namespace Machine

/-- The machine with one scope more. -/
def withScope (m : Machine) (bindings : List (String × Binding)) (parent : ScopeId) : Machine :=
  { m with store := ⟨m.store.scopes.push ⟨bindings, some parent⟩⟩ }

variable {m : Machine} {bindings : List (String × Binding)} {parent : ScopeId}

theorem scope_withScope (id : ScopeId) : (m.withScope bindings parent).store.scope id =
    if id = m.store.scopes.size then ⟨bindings, some parent⟩ else m.store.scope id := by
  simp only [withScope, Store.scope, Array.getD_eq_getD_getElem?, Array.getElem?_push]
  split <;> simp

/-- A binding goes behind those that the new scope has. -/
theorem bind_withScope (name : String) (v : Value) (constant : Bool) :
    { m.withScope bindings parent with
      store := (m.withScope bindings parent).store.bind m.store.scopes.size name v constant } =
      m.withScope (bindings ++ [(name, ⟨v, constant⟩)]) parent := by
  have scopes : (m.store.scopes.push ⟨bindings, some parent⟩).modify m.store.scopes.size
      (·.add name ⟨v, constant⟩) =
        m.store.scopes.push ⟨bindings ++ [(name, ⟨v, constant⟩)], some parent⟩ := by
    refine Array.ext (by simp) fun i _ _ => ?_
    rw [Array.getElem_modify, Array.getElem_push, Array.getElem_push]
    by_cases older : i < m.store.scopes.size
    · simp [older, Nat.ne_of_gt older]
    · have last : m.store.scopes.size = i := by simp at *; omega
      simp [last, Scope.add]
  simp only [withScope, Store.bind, Store.modify, scopes]

end Machine

namespace Eval

variable {m : Machine} {bindings : List (String × Binding)} {parent : ScopeId} {span : Span}
  {name : String} {params : List String} {args : List Value} {closure : Closure}

theorem declare_withScope (v : Value) (constant : Bool) :
    Run.declare m.store.scopes.size name v constant span (m.withScope bindings parent) =
      if name ∈ bindings.map (·.1) then
        (.failure ⟨.scope (.redeclaration name), span⟩, m.withScope bindings parent)
      else (.value (), m.withScope (bindings ++ [(name, ⟨v, constant⟩)]) parent) := by
  have bound : ((m.withScope bindings parent).store.scope m.store.scopes.size).binds name = true ↔
      name ∈ bindings.map (·.1) := by
    rw [Machine.scope_withScope, if_pos rfl, Scope.binds_iff]
  rw [← Machine.bind_withScope]
  simp only [Run.declare, Run.updateStore, Store.declareFault?, bound]
  by_cases again : name ∈ bindings.map (·.1)
  · simp only [if_pos again]
  · simp only [if_neg again]

/-- Parameters that are new and all different are bound, whatever the arguments are. -/
theorem bindParams_withScope (distinct : params.Nodup)
    (new : ∀ param ∈ params, param ∉ bindings.map (·.1)) (args : List Value) :
    bindParams m.store.scopes.size span params args (m.withScope bindings parent) =
      (.value (), m.withScope (bindings ++ paramBindings params args) parent) := by
  induction params generalizing bindings args with
  | nil => simp [bindParams, paramBindings]
  | cons param params ih =>
    obtain ⟨apart, distinct⟩ := List.nodup_cons.mp distinct
    obtain ⟨first, others⟩ := List.forall_mem_cons.mp new
    rw [bindParams, Run.bind_apply, declare_withScope, if_neg first]
    dsimp only
    rw [ih distinct, paramBindings_cons, List.append_assoc, List.singleton_append]
    intro other member
    rw [List.map_append, List.mem_append, not_or, List.map_singleton, List.mem_singleton]
    refine ⟨others other member, ?_⟩
    rintro rfl
    exact apart member

theorem bindParams_append (scope : ScopeId) (before after : List String) (args : List Value) :
    bindParams scope span (before ++ after) args =
      bindParams scope span before args >>= fun _ =>
        bindParams scope span after (args.drop before.length) := by
  induction before generalizing args with
  | nil => rfl
  | cons param before ih =>
    rw [List.cons_append, bindParams, bindParams, bind_assoc]
    refine congrArg _ (funext fun _ => ?_)
    rw [ih, List.length_cons, List.drop_tail, Nat.add_comm]

/-- Missing arguments and surplus ones make no difference. -/
theorem bindParams_takeD (scope : ScopeId) (params : List String) (args : List Value) :
    bindParams scope span params (args.takeD params.length .null) =
      bindParams scope span params args := by
  induction params generalizing args with
  | nil => rfl
  | cons param params ih =>
    simp only [bindParams]
    exact congrArg _ (funext fun _ => ih args.tail)

/-- Parameters are bound up to the first one that repeats an earlier one. -/
theorem bindParams_repeated {before after : List String} {param : String}
    (distinct : before.Nodup) (again : param ∈ before) (args : List Value) :
    bindParams m.store.scopes.size span (before ++ param :: after) args (m.withScope [] parent) =
      (.failure ⟨.scope (.redeclaration param), span⟩,
        m.withScope (paramBindings before args) parent) := by
  have bound : param ∈ (paramBindings before args).map (·.1) := by
    rwa [map_fst_paramBindings]
  rw [bindParams_append, Run.bind_apply, bindParams_withScope distinct (by simp), List.nil_append]
  dsimp only
  rw [bindParams, Run.bind_apply, declare_withScope, if_pos bound]

/-- A list with a repetition has a first one. -/
theorem exists_first_repeated (repeated : ¬params.Nodup) :
    ∃ before param after, params = before ++ param :: after ∧ before.Nodup ∧ param ∈ before := by
  induction params using List.reverseRec with
  | nil => exact absurd List.nodup_nil repeated
  | append_singleton params last ih =>
    by_cases distinct : params.Nodup
    · refine ⟨params, last, [], rfl, distinct, ?_⟩
      by_contra new
      refine repeated (List.nodup_append.mpr ⟨distinct, List.nodup_cons.mpr ⟨by simp, .nil⟩, ?_⟩)
      rintro param member _ (_ | ⟨_, ⟨⟩⟩) rfl
      exact new member
    · obtain ⟨before, param, after, rfl, rest⟩ := ih distinct
      exact ⟨before, param, after ++ [last], by simp, rest⟩

/-- What a machine is changed into when the body of a function begins: there is one scope more, in
the scope of the declaration, that binds each parameter to its argument and nothing else. -/
structure Enters (closure : Closure) (args : List Value) (before after : Machine) : Prop where
  size : after.store.scopes.size = before.store.scopes.size + 1
  older : ∀ id < before.store.scopes.size, after.store.scope id = before.store.scope id
  parent : (after.store.scope before.store.scopes.size).parent = some closure.scope
  param : ∀ i (inside : i < closure.params.length),
    (after.store.scope before.store.scopes.size).find? closure.params[i] =
      some ⟨args.getD i .null, false⟩
  only : ∀ name, (after.store.scope before.store.scopes.size).binds name = true →
    name ∈ closure.params
  nextIdentity : after.nextIdentity = before.nextIdentity
  sink : after.sink = before.sink

theorem enters_withScope (distinct : closure.params.Nodup) :
    Enters closure args m (m.withScope (paramBindings closure.params args) closure.scope) := by
  have made : (m.withScope (paramBindings closure.params args) closure.scope).store.scope
      m.store.scopes.size = ⟨paramBindings closure.params args, some closure.scope⟩ := by
    rw [Machine.scope_withScope, if_pos rfl]
  refine ⟨Array.size_push _, ?_, ?_, ?_, ?_, rfl, rfl⟩
  · intro id older
    rw [Machine.scope_withScope, if_neg (Nat.ne_of_lt older)]
  · rw [made]
  · intro i inside
    rw [made]
    exact lookup_paramBindings distinct args inside
  · intro name binds
    rw [made, Scope.binds_iff, map_fst_paramBindings] at binds
    exact binds

variable {caller : Caller}

theorem callClosure_distinct (distinct : closure.params.Nodup) :
    callClosure caller closure args span m =
      evalSequence caller m.store.scopes.size .null closure.body
        (m.withScope (paramBindings closure.params args) closure.scope) := by
  have bound : bindParams m.store.scopes.size span closure.params args
      (m.withScope [] closure.scope) =
        (.value (), m.withScope (paramBindings closure.params args) closure.scope) :=
    bindParams_withScope distinct (by simp) args
  rw [callClosure, Run.bind_apply]
  change (bindParams m.store.scopes.size span closure.params args >>= fun _ => _)
    (m.withScope [] closure.scope) = _
  rw [Run.bind_apply, bound]

theorem callClosure_repeated {before after : List String} {param : String}
    (split : closure.params = before ++ param :: after) (distinct : before.Nodup)
    (again : param ∈ before) :
    callClosure caller closure args span m =
      (.failure ⟨.scope (.redeclaration param), span⟩,
        m.withScope (paramBindings before args) closure.scope) := by
  rw [callClosure, Run.bind_apply, split]
  change (bindParams m.store.scopes.size span (before ++ param :: after) args >>= fun _ => _)
    (m.withScope [] closure.scope) = _
  rw [Run.bind_apply, bindParams_repeated distinct again]

theorem callClosure_takeD (caller : Caller) (closure : Closure) (args : List Value) (span : Span) :
    callClosure caller closure (args.takeD closure.params.length .null) span =
      callClosure caller closure args span := by
  simp only [callClosure, bindParams_takeD]

/-- **Arguments are bound by position.** A call of a function whose parameters are all different
runs its body in one new scope, inside that of the declaration, where each parameter has its
argument, or `null`. So arguments can be cut or filled up with `null` to the number of parameters.
If a parameter is repeated, a call fails with the first one that is, where the call stands. It does
not depend on the body then, prints nothing, and leaves all scopes that there were as they are. -/
theorem arguments_bound (host : Host) (depth : Nat) (id : Identity) (closure : Closure)
    (args : List Value) (site : ScopeId) (span : Span) (m : Machine) :
    let call (closure : Closure) (args : List Value) :=
      invoke host (depth + 1) (.function id closure) args site span
    (closure.params.Nodup →
      (∃ start, Enters closure args m start ∧ call closure args m =
        evalSequence (invoke host depth) m.store.scopes.size .null closure.body start) ∧
      call closure args m = call closure (args.takeD closure.params.length .null) m) ∧
    (¬closure.params.Nodup →
      ∃ before param after, closure.params = before ++ param :: after ∧ before.Nodup ∧
        param ∈ before ∧ ∃ last help,
          Setup.conclude (call closure args) m = (.failure ⟨.runtime, span,
            "Cannot redeclare block scoped variable " ++ param, help⟩, last) ∧
          (∀ body, call { closure with body } args m = call closure args m) ∧
          (∀ id < m.store.scopes.size, last.store.scope id = m.store.scope id) ∧
          last.nextIdentity = m.nextIdentity ∧ last.sink = m.sink) := by
  intro call
  refine ⟨fun distinct => ⟨⟨_, enters_withScope distinct, callClosure_distinct distinct⟩, ?_⟩,
    fun repeated => ?_⟩
  · exact (congrFun (callClosure_takeD _ closure args span) m).symm
  · obtain ⟨before, param, after, split, distinct, again⟩ := exists_first_repeated repeated
    have fails (body : List Stmt) : call { closure with body } args m =
        (.failure ⟨.scope (.redeclaration param), span⟩,
          m.withScope (paramBindings before args) closure.scope) :=
      callClosure_repeated split distinct again
    refine ⟨before, param, after, split, distinct, again,
      m.withScope (paramBindings before args) closure.scope,
      some (ScopeFault.redeclaration param).help, ?_, ?_, ?_, rfl, rfl⟩
    · rw [Setup.conclude, fails closure.body]
      rfl
    · intro body
      rw [fails body, fails closure.body]
    · intro id older
      rw [Machine.scope_withScope, if_neg (Nat.ne_of_lt older)]

/-- A function that prints its second parameter, with one argument, and the same function with its
parameters repeated. -/
theorem arguments_bound_repeated :
    let m := Machine.initial.newGlobalScope.2
    let body : List Stmt :=
      [.expr (.call (.name "print" ⟨13, 18⟩) [.name "b" ⟨19, 20⟩] ⟨13, 21⟩) ⟨13, 21⟩]
    let call (params : List String) (body : List Stmt) (args : List Value) :=
      invoke .standard 2 (.function 1 ⟨"f", params, body, 0⟩) args 0 ⟨24, 30⟩ m
    ["a", "b"].Nodup ∧ ¬["a", "b", "b", "a"].Nodup ∧
      call ["a", "b"] body [.text "x"] = call ["a", "b"] body [.text "x", .null] ∧
      (call ["a", "b"] body [.text "x"]).2.sink.written = "null\n" ∧
      (call ["a", "b", "b", "a"] body [.text "x"]).1 =
        .failure ⟨.scope (.redeclaration "b"), ⟨24, 30⟩⟩ ∧
      ∀ other, call ["a", "b", "b", "a"] other [.text "x"] =
        call ["a", "b", "b", "a"] body [.text "x"] := by
  intro m body call
  have distinct : ["a", "b"].Nodup := by decide
  have repeated : ¬["a", "b", "b", "a"].Nodup := by decide
  have once := arguments_bound .standard 1 1 ⟨"f", ["a", "b"], body, 0⟩ [.text "x"] 0 ⟨24, 30⟩ m
  have twice := arguments_bound .standard 1 1 ⟨"f", ["a", "b", "b", "a"], body, 0⟩ [.text "x"] 0
    ⟨24, 30⟩ m
  obtain ⟨-, -, -, -, -, -, -, -, -, blind, -⟩ := twice.2 repeated
  exact ⟨distinct, repeated, (once.1 distinct).2, by decide +kernel, rfl, blind⟩

end Eval

end Scriptlet
