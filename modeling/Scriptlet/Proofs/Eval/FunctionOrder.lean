import Scriptlet.Proofs.Eval.Locality
import Scriptlet.Proofs.Renaming.Diagonal

/-!
# Functions in any order

A function is found by its name when it is called, so that two declarations that follow one another
can change places. The machines that they leave differ in the order of two bindings and in which of
the functions has the smaller identity: they are the same up to a renaming that exchanges the two
(`Renaming.Relates.declareFunctions`), and whatever is evaluated afterwards ends alike
(`Setup.functions_in_any_order`).
-/
namespace Scriptlet

/-- Changes of one scope, one after the other. -/
theorem Store.modify_modify (store : Store) (id : ScopeId) (first second : Scope → Scope) :
    (store.modify id first).modify id second = store.modify id (second ∘ first) := by
  unfold Store.modify
  refine congrArg Store.mk (Array.ext (by simp) fun i _ _ => ?_)
  simp only [Array.getElem_modify, Function.comp]
  split <;> rfl

/-- What the declaration of a function leaves behind. -/
def Machine.declareFunction (m : Machine) (closure : Closure) : Machine :=
  ⟨m.store.bind closure.scope closure.name (.function m.nextIdentity closure) true,
    m.nextIdentity + 1, m.sink⟩

namespace Renaming

variable {ρ : Renaming} {m n : Machine} {env other : ScopeId}

/-- Two different names can be added in any order. -/
theorem RelatesScope.add_add {s t : Scope} (h : ρ.RelatesScope s t) {f g : String}
    (different : f ≠ g) {a a' b b' : Binding} (first : ρ.RelatesBinding a a')
    (second : ρ.RelatesBinding b b') :
    ρ.RelatesScope ((s.add f a).add g b) ((t.add g b').add f a') where
  parent := h.parent
  bindings name := by
    rw [Scope.find?_add, Scope.find?_add, Scope.find?_add, Scope.find?_add]
    obtain ⟨left, right⟩ | ⟨x, y, left, right, same⟩ := optionRel_iff.mp (h.bindings name)
    · rw [left, right]
      by_cases is_f : name = f
      · have not_g : name ≠ g := is_f.symm ▸ different
        simpa [is_f, different] using first
      · by_cases is_g : name = g
        · simpa [is_g, different.symm] using second
        · simp [is_f, is_g]
    · rw [left, right]
      simpa using same

/-- Two functions are declared in one order here and in the other there. The identities that they
get are paired off crosswise. -/
theorem Relates.declareFunctions (h : ρ.Relates m n) (pair : ρ.scopes.Pairs env other)
    {f g : String} (different : f ≠ g) (params params' : List String) (body body' : List Stmt) :
    ∃ σ, ρ ≤ σ ∧ σ.Relates
      ((m.declareFunction ⟨f, params, body, env⟩).declareFunction ⟨g, params', body', env⟩)
      ((n.declareFunction ⟨g, params', body', other⟩).declareFunction
        ⟨f, params, body, other⟩) := by
  have free : ∀ k l, ρ.identities.Pairs k l → k ≠ m.nextIdentity ∧ l ≠ n.nextIdentity + 1 := by
    intro k l among
    have := h.given among
    omega
  let τ := ρ.withIdentity m.nextIdentity (n.nextIdentity + 1) free
  have free' : ∀ k l, τ.identities.Pairs k l → k ≠ m.nextIdentity + 1 ∧ l ≠ n.nextIdentity := by
    rintro k l (among | ⟨rfl, rfl⟩)
    · have := h.given among
      omega
    · omega
  let σ := τ.withIdentity (m.nextIdentity + 1) n.nextIdentity free'
  have extended : ρ ≤ σ := le_withIdentity.trans le_withIdentity
  have scope : σ.scopes.Pairs env other := extended.1 _ _ pair
  refine ⟨σ, extended, ?_, ?_, h.room_eq⟩
  · have stores : σ.RelatesStore m.store n.store :=
      ⟨h.store.made, fun among => (h.store.scope among).mono extended, h.store.older_left,
        h.store.older_right⟩
    simp only [Machine.declareFunction, Store.bind, Store.modify_modify]
    refine stores.modify scope (fun _ => rfl) (fun _ => rfl) ?_
    exact (stores.scope scope).add_add different
      ⟨rfl, .function (.inl (.inr ⟨rfl, rfl⟩)) scope⟩ ⟨rfl, .function (.inr ⟨rfl, rfl⟩) scope⟩
  · rintro i j ((among | ⟨rfl, rfl⟩) | ⟨rfl, rfl⟩)
    · have := h.given among
      simp only [Machine.declareFunction]
      omega
    · simp only [Machine.declareFunction]
      omega
    · simp only [Machine.declareFunction]
      omega

end Renaming

namespace Eval

variable {caller : Caller} {m : Machine} {env : ScopeId} {f g : String}

theorem evalStmt_function (free : (m.store.scope env).binds f = false) (params : List String)
    (body : List Stmt) (span : Span) :
    evalStmt caller env (.function f params body span) m =
      (.value .null, m.declareFunction ⟨f, params, body, env⟩) := by
  have allowed : m.store.declareFault? env f = none := by
    rw [Store.declareFault?, free]
    rfl
  rw [evalStmt]
  simp only [Run.bind_apply, Run.newIdentity, Machine.newIdentity, Run.declare, Run.updateStore,
    allowed, Run.pure_apply, Machine.declareFunction]

/-- A function declared in a scope leaves the other names of it as they are. -/
theorem binds_declareFunction (made : env < m.store.scopes.size) (different : g ≠ f)
    (params : List String) (body : List Stmt) :
    ((m.declareFunction ⟨f, params, body, env⟩).store.scope env).binds g =
      (m.store.scope env).binds g := by
  simp only [Machine.declareFunction, Store.bind, Store.scope_modify _ _ _ _ made, if_true,
    Scope.binds, Scope.find?_add, if_neg different, Option.or_none]

/-- A sequence that begins with two functions of new names goes on where both are declared. -/
theorem evalSequence_functions (made : env < m.store.scopes.size)
    (free_f : (m.store.scope env).binds f = false) (free_g : (m.store.scope env).binds g = false)
    (different : g ≠ f) (params params' : List String) (body body' : List Stmt)
    (span span' : Span) (last : Value) (rest : List Stmt) :
    evalSequence caller env last
        (.function f params body span :: .function g params' body' span' :: rest) m =
      evalSequence caller env .null rest
        ((m.declareFunction ⟨f, params, body, env⟩).declareFunction
          ⟨g, params', body', env⟩) := by
  have still : ((m.declareFunction ⟨f, params, body, env⟩).store.scope env).binds g = false := by
    rw [binds_declareFunction made different, free_g]
  rw [evalSequence, Run.bind_apply, evalStmt_function free_f]
  simp only [evalSequence, Run.bind_apply, evalStmt_function still]

end Eval

namespace Setup

open Renaming

/-- A scope stays proper, whatever program runs in it and however it ends: with new global scopes,
scopes inside and scopes of functions, all that runs lead to are. -/
theorem proper_evalProgram (setup : Setup)
    (prints : setup.host Eval.Native.printName = some Eval.Native.print) {m : Machine}
    {env : ScopeId} (proper : m.Proper env) (program : Program) :
    (setup.evalProgram env program m).2.Proper env := by
  have pair := diagonal_env m env
  obtain ⟨σ, ended⟩ :=
    Eval.evalProgram_local prints (relates_diagonal proper) setup.depth pair program
  exact ended.machines.proper (ended.extended.1 _ _ pair)

/-- Two programs do the same in a scope: they print the same text, fail with the same diagnostic or
end with values of the same text, and leave the same machine, all up to a renaming that renames
nothing of what was there before. -/
structure DoAlike (setup : Setup) (env : ScopeId) (m : Machine) (p q : Program) : Prop where
  printed : (setup.evalProgram env p m).2.sink.written = (setup.evalProgram env q m).2.sink.written
  outcomes : (setup.evalProgram env p m).1.Rel (fun v w => v.render = w.render)
    (setup.evalProgram env q m).1
  renamed : ∃ σ, EndAlike RelatesValue (diagonal m env) σ m m (setup.evalProgram env p m)
    (setup.evalProgram env q m)

/-- Ends that are alike up to a renaming show the same. -/
theorem DoAlike.of_endAlike {setup : Setup} {env : ScopeId} {m : Machine} {p q : Program}
    {σ : Renaming} (alike : EndAlike RelatesValue (diagonal m env) σ m m
      (setup.evalProgram env p m) (setup.evalProgram env q m)) : setup.DoAlike env m p q where
  printed := by
    obtain ⟨text, left, right⟩ := alike.said
    rw [left, right]
  outcomes := alike.outcomes.mono fun _ _ => RelatesValue.render_eq
  renamed := ⟨σ, alike⟩

/-- Where two names are new, functions of these names can be declared in any order, whatever
follows. -/
theorem functions_in_any_order (setup : Setup)
    (prints : setup.host Eval.Native.printName = some Eval.Native.print) {m : Machine}
    {env : ScopeId} (proper : m.Proper env) {f g : String} (different : f ≠ g)
    (free_f : (m.store.scope env).binds f = false) (free_g : (m.store.scope env).binds g = false)
    (params params' : List String) (body body' : List Stmt) (span span' : Span)
    (rest : Program) :
    setup.DoAlike env m
      (.function f params body span :: .function g params' body' span' :: rest)
      (.function g params' body' span' :: .function f params body span :: rest) := by
  have pair := diagonal_env m env
  have machines := relates_diagonal proper
  have made : env < m.store.scopes.size := (machines.store.made pair).1
  obtain ⟨σ, extended, declared⟩ :=
    machines.declareFunctions pair different params params' body body'
  -- From where both functions are declared, the same statements are evaluated.
  obtain ⟨τ, ended⟩ :=
    Eval.evalProgram_local prints declared setup.depth (extended.1 _ _ pair) rest
  refine DoAlike.of_endAlike (σ := τ) (EndAlike.conclude
    (p := Eval.evalProgram setup.host setup.depth env _)
    (q := Eval.evalProgram setup.host setup.depth env _) ?_)
  rw [Eval.evalProgram, Eval.evalProgram,
    Eval.evalSequence_functions made free_f free_g different.symm,
    Eval.evalSequence_functions made free_g free_f different]
  exact ⟨extended.trans ended.extended, ended.machines, ended.outcomes, ended.said⟩

/-- Two functions that call each other find out whether a chain of objects is even, whichever of them
is declared first. -/
theorem functions_in_any_order_mutual :
    let machine := Machine.initial.newGlobalScope.2
    let here : Span := ⟨0, 1⟩
    let body := fun (answer next : String) => [Stmt.branch
      (.binary (.comparison .equal) (.name "chain" here) (.name "null" here) here)
      [.expr (.text answer here) here] []
      (some [.expr (.call (.name next here) [.member (.name "chain" here) "rest" here] here) here])
      here]
    let even := Stmt.function "even" ["chain"] (body "yes" "odd") here
    let odd := Stmt.function "odd" ["chain"] (body "no" "even") here
    let longer := fun chain => Expr.object [.mk "rest" chain here] here
    let asking : Stmt := .expr (.call (.name "print" here)
      [.call (.name "even" here) [longer (longer (longer (.name "null" here)))] here] here) here
    Setup.standard.host Eval.Native.printName = some Eval.Native.print ∧ machine.Proper 0 ∧
      "even" ≠ "odd" ∧ (machine.store.scope 0).binds "even" = false ∧
        (machine.store.scope 0).binds "odd" = false ∧
          Setup.standard.DoAlike 0 machine [even, odd, asking] [odd, even, asking] ∧
            (Setup.standard.evalProgram 0 [even, odd, asking] machine).2.sink.written = "no\n" := by
  intro machine here body even odd longer asking
  have proper : machine.Proper 0 := Machine.proper_newGlobalScope Machine.initial
  have free_even : (machine.store.scope 0).binds "even" = false := by decide
  have free_odd : (machine.store.scope 0).binds "odd" = false := by decide
  exact ⟨rfl, proper, by decide, free_even, free_odd,
    functions_in_any_order Setup.standard rfl proper (by decide) free_even free_odd _ _ _ _ _ _ _,
    by decide +kernel⟩

end Setup

end Scriptlet
