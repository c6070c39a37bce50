import Scriptlet.Proofs.Eval.Padding
import Scriptlet.Proofs.Eval.Termination

/-!
# Chains of conditions as nested conditionals

A chain of conditions can be written with a conditional inside the last block instead of its second
condition. The inner conditional then stands in a scope of its own, in which it declares nothing. So
evaluation ends alike for both, and so does whatever is evaluated afterwards (`elseif_nested`).
-/
namespace Scriptlet

namespace Pad

/-- Two ends that are equal, or the same but for an additional scope. -/
def EndsAlike {ε : Type} (made : Nat) :
    Option Pad → Outcome ε Value × Machine → Outcome ε Value × Machine → Prop
  | none, x, y => x = y
  | some pad, x, y => pad.RelatesEnds pad.RelatesValue made x y

/-- Ends that are alike are so also in the words that the user is told. -/
theorem EndsAlike.conclude {pad? : Option Pad} {made : Nat} {p q : Eval.Run Value} {m n : Machine}
    (alike : EndsAlike made pad? (p m) (q n)) :
    EndsAlike made pad? (Setup.conclude p m) (Setup.conclude q n) := by
  cases pad? with
  | none =>
    have same : p m = q n := alike
    simp only [EndsAlike, Setup.conclude, same]
  | some pad => exact RelatesEnds.conclude alike

end Pad

namespace Eval

open Run Pad

/-- What goes on alike after two runs that ended alike. -/
theorem endsAlike_bind {host : Host} {pad? : Option Pad} {made : Nat} {p q : Run Value}
    {second : Value → Run Value} {m : Machine} (alike : EndsAlike made pad? (p m) (q m))
    (ignores : ∀ pad ∈ pad?, host.Ignores pad)
    (next : ∀ pad (member : pad ∈ pad?) later, made ≤ later → ∀ v w, pad.RelatesValue later v w →
      (padding (ignores pad member)).Agrees pad.RelatesValue later (second v) (second w)) :
    EndsAlike made pad? ((p >>= second) m) ((q >>= second) m) := by
  cases pad? with
  | none =>
    have same : p m = q m := alike
    simp only [EndsAlike, bind_apply, same]
  | some pad =>
    have ends : (padding (ignores pad rfl)).Ends pad.RelatesValue made (p m) (q m) :=
      ends_padding_iff.mpr alike
    exact ends_padding_iff.mp (ends.bind (next pad rfl))

variable {caller : Caller} {scope : ScopeId}

/-- What follows the first condition of a chain is a chain. -/
theorem evalStmt_chain (condition first : Expr) (body block : List Stmt)
    (alternatives : List Alternative) (otherwise : Option (List Stmt)) (span inner : Span) :
    evalStmt caller scope
        (.branch condition body (.mk first block :: alternatives) otherwise span) =
      evalExpr caller scope condition >>= fun v =>
        if v.isTruthy then newScope scope >>= fun id => evalSequence caller id .null body
        else evalStmt caller scope (.branch first block alternatives otherwise inner) := by
  cases otherwise <;>
  · rw [evalStmt, evalStmt]
    refine congrArg _ (funext fun v => ?_)
    rw [evalAlternatives, bind_assoc]
    refine congrArg (ite _ _) (congrArg _ (funext fun w => ?_))
    split
    · simp only [bind_assoc, pure_bind, bind_pure]
    · rfl

/-- The last block of a conditional without other conditions, if it is a single statement. -/
theorem evalStmt_nested (condition : Expr) (body : List Stmt) (statement : Stmt) (span : Span) :
    evalStmt caller scope (.branch condition body [] (some [statement]) span) =
      evalExpr caller scope condition >>= fun v =>
        if v.isTruthy then newScope scope >>= fun id => evalSequence caller id .null body
        else newScope scope >>= fun id => evalStmt caller id statement := by
  rw [evalStmt]
  simp only [evalAlternatives, evalSequence, pure_bind, bind_pure]

variable {host : Host} {machine : Machine} {env : ScopeId}

/-- Evaluation keeps closed stores closed: it would do so beside a machine with one more scope. -/
theorem evalExpr_closed (closed : machine.store.Closed) (made : env < machine.store.scopes.size)
    (ignores : host.Ignores ⟨machine.store.scopes.size, env, made⟩) (depth : Nat) (e : Expr) :
    let next := (evalExpr (invoke host depth) env e machine).2
    next.store.Closed ∧ machine.store.scopes.size ≤ next.store.scopes.size := by
  have here : (padding ignores).Sees machine.store.scopes.size env env :=
    ⟨made, .inl (past_of_lt made).symm⟩
  have agrees := evalExpr_agrees (invoke_agrees (padding ignores) depth) e.moved_refl here
  have beside := relatesEnds_of_agrees (relates_newScope closed made) (Nat.le_refl _) agrees
  exact ⟨beside.machines.store.closed, beside.grown⟩

/-- The additional scope is made after the first condition, if that does not hold. -/
theorem evalStmt_elseif (closed : machine.store.Closed) (made : env < machine.store.scopes.size)
    (ignores : ∀ pad : Pad, pad.outer = env → machine.store.scopes.size ≤ pad.id →
      host.Ignores pad) (depth : Nat) (condition first : Expr) (body block : List Stmt)
    (alternatives : List Alternative) (otherwise : Option (List Stmt)) (span inner : Span) :
    let nested := Stmt.branch first block alternatives otherwise inner
    ∃ pad? : Option Pad,
      (∀ pad ∈ pad?, pad.outer = env ∧ machine.store.scopes.size ≤ pad.id) ∧
        EndsAlike machine.store.scopes.size pad?
          (evalStmt (invoke host depth) env
            (.branch condition body (.mk first block :: alternatives) otherwise span) machine)
          (evalStmt (invoke host depth) env
            (.branch condition body [] (some [nested]) span) machine) := by
  intro nested
  obtain ⟨closed', grown⟩ :=
    evalExpr_closed closed made (ignores _ rfl (Nat.le_refl _)) depth condition
  rw [evalStmt_chain condition first body block alternatives otherwise span inner, evalStmt_nested,
    bind_apply, bind_apply]
  cases run : evalExpr (invoke host depth) env condition machine with
  | mk x next =>
    rw [run] at closed' grown
    cases x with
    | failure e => exact ⟨none, nofun, rfl⟩
    | unfinished => exact ⟨none, nofun, rfl⟩
    | value v =>
      by_cases holds : v.isTruthy
      · refine ⟨none, nofun, ?_⟩
        simp only [holds, if_true]
        rfl
      · have made' : env < next.store.scopes.size := Nat.lt_of_lt_of_le made grown
        let pad := Pad.mk next.store.scopes.size env made'
        let accord := padding (ignores pad rfl grown)
        have inside : accord.Sees next.store.scopes.size env pad.id := ⟨made', pad.sees_pad⟩
        have agrees :=
          evalStmt_agrees (invoke_agrees accord depth) nested.moved_refl inside nofun
        have beside := relatesEnds_of_agrees (relates_newScope closed' made') grown agrees
        refine ⟨some pad, by rintro _ ⟨⟩; exact ⟨rfl, grown⟩, ?_⟩
        simp only [holds]
        exact beside

end Eval

namespace Setup

open Eval Pad

variable {setup : Setup} {pad : Pad} {machine : Machine} {env : ScopeId}

/-- Programs that are evaluated one after the other in twins. -/
theorem afterPrograms_pads (ignores : setup.host.Ignores pad) {made : Nat} {a b : ScopeId}
    (twins : pad.Twins made a b) (programs : List Program) {m n : Machine}
    (machines : pad.Relates m n) (enough : made ≤ m.store.scopes.size) :
    pad.Relates (setup.afterPrograms a programs m) (setup.afterPrograms b programs n) ∧
      made ≤ (setup.afterPrograms a programs m).store.scopes.size := by
  induction programs generalizing m n with
  | nil => exact ⟨machines, enough⟩
  | cons program rest ih =>
    have ended := setup.evalProgram_pads ignores twins program machines enough
    exact ih ended.machines ended.grown

/-- A session in a closed store leaves a closed store behind. -/
theorem closed_afterPrograms (closed : machine.store.Closed)
    (made : env < machine.store.scopes.size)
    (ignores : setup.host.Ignores ⟨machine.store.scopes.size, env, made⟩)
    (programs : List Program) :
    let next := setup.afterPrograms env programs machine
    next.store.Closed ∧ machine.store.scopes.size ≤ next.store.scopes.size := by
  obtain ⟨beside, grown⟩ := afterPrograms_pads ignores ⟨made, (past_of_lt made).symm⟩ programs
    (relates_newScope closed made) (Nat.le_refl _)
  exact ⟨beside.store.closed, grown⟩

/-- What is evaluated after runs that ended alike. -/
theorem endsAlike_afterPrograms {pad? : Option Pad} {made : Nat}
    {x y : Outcome Diagnostic Value × Machine} (alike : EndsAlike made pad? x y)
    (ignores : ∀ pad ∈ pad?, setup.host.Ignores pad) (twins : ∀ pad ∈ pad?, pad.Twins made env env)
    (earlier : List Program) (program : Program) :
    EndsAlike made pad? (setup.evalProgram env program (setup.afterPrograms env earlier x.2))
      (setup.evalProgram env program (setup.afterPrograms env earlier y.2)) := by
  cases pad? with
  | none =>
    obtain rfl : x = y := alike
    rfl
  | some pad =>
    have ignored := ignores pad rfl
    obtain ⟨machines, enough⟩ :=
      afterPrograms_pads ignored (twins pad rfl) earlier alike.machines alike.grown
    exact setup.evalProgram_pads ignored (twins pad rfl) program machines enough

/-- **An `elseif` is a nested conditional.** A chain of conditions, evaluated in any scope of a
closed store, ends like the conditional that has the rest of the chain inside its last block: with
the same failure or the same value, with the same text printed, and with the same bindings in all
scopes. The two differ at most by an empty scope inside the current one, which may stand on the way
outward from functions that were declared in the blocks, and by the numbers of the scopes made after
it; the scopes that there were before keep their numbers and parents. So do the rest of the same
program and all programs that follow in that scope, whether or not they fail. Native functions have
to ignore such a scope, and are free to do anything else. -/
theorem elseif_nested (setup : Setup) {machine : Machine} {env : ScopeId}
    (closed : machine.store.Closed) (made : env < machine.store.scopes.size)
    (ignores : ∀ pad : Pad, pad.outer = env → machine.store.scopes.size ≤ pad.id →
      setup.host.Ignores pad) (condition first : Expr) (body block : List Stmt)
    (alternatives : List Alternative) (otherwise : Option (List Stmt)) (span inner : Span) :
    let chain := Stmt.branch condition body (.mk first block :: alternatives) otherwise span
    let nested := Stmt.branch condition body []
      (some [.branch first block alternatives otherwise inner]) span
    let x := setup.evalStmt env chain machine
    let y := setup.evalStmt env nested machine
    let before := machine.store.scopes.size
    ∃ pad? : Option Pad, (∀ pad ∈ pad?, pad.outer = env ∧ before ≤ pad.id) ∧
      EndsAlike before pad? x y ∧
      (∀ rest : Program, EndsAlike before pad? (setup.evalProgram env (chain :: rest) machine)
        (setup.evalProgram env (nested :: rest) machine)) ∧
      ∀ (earlier : List Program) (program : Program), EndsAlike before pad?
        (setup.evalProgram env program (setup.afterPrograms env earlier x.2))
        (setup.evalProgram env program (setup.afterPrograms env earlier y.2)) := by
  intro chain nested x y before
  obtain ⟨pad?, inside, alike⟩ := evalStmt_elseif closed made ignores setup.depth condition first
    body block alternatives otherwise span inner
  have ignored : ∀ pad ∈ pad?, setup.host.Ignores pad := fun pad member =>
    ignores pad (inside pad member).1 (inside pad member).2
  have twins : ∀ pad ∈ pad?, pad.Twins before env env := fun pad member =>
    ⟨made, (past_of_lt (Nat.lt_of_lt_of_le made (inside pad member).2)).symm⟩
  refine ⟨pad?, inside, alike.conclude, fun rest => ?_, fun earlier program => ?_⟩
  · have continued := endsAlike_bind alike ignored fun pad member later grown v w last =>
      evalSequence_agrees (invoke_agrees _ setup.depth) (movedStmts_refl rest)
        ((twins pad member).mono grown) last
    exact continued.conclude
  · exact endsAlike_afterPrograms alike.conclude ignored twins earlier program

/-- In a session, a function is declared behind an `elseif` and let out of its block. The nested
conditional makes a scope more, from which the function is called and prints as well. -/
theorem elseif_nested_escaping :
    let machine :=
      Setup.standard.afterPrograms 0 [[.declare "out" false none ⟨0, 7⟩]]
        Machine.initial.newGlobalScope.2
    let condition := Expr.name "out" ⟨4, 7⟩
    let body := [Stmt.expr (.name "out" ⟨11, 14⟩) ⟨11, 14⟩]
    let first := Expr.name "true" ⟨25, 29⟩
    let block : List Stmt :=
      [.function "hi" []
        [.expr (.call (.name "print" ⟨43, 48⟩) [.text "hi" ⟨49, 53⟩] ⟨43, 54⟩) ⟨43, 54⟩] ⟨33, 56⟩,
        .expr (.assign (.name "out" ⟨57, 60⟩) (.name "hi" ⟨63, 65⟩) ⟨57, 65⟩) ⟨57, 65⟩]
    let chain := Stmt.branch condition body [.mk first block] none ⟨0, 67⟩
    let inner := Stmt.branch first block [] none ⟨17, 67⟩
    let nested := Stmt.branch condition body [] (some [inner]) ⟨0, 67⟩
    let x := Setup.standard.evalStmt 0 chain machine
    let y := Setup.standard.evalStmt 0 nested machine
    let call : Program := [.expr (.call (.name "out" ⟨0, 3⟩) [] ⟨0, 5⟩) ⟨0, 5⟩]
    machine.store.Closed ∧ 0 < machine.store.scopes.size ∧
      (∀ pad, Setup.standard.host.Ignores pad) ∧
      x.2.store.scopes.size = 2 ∧ y.2.store.scopes.size = 3 ∧
      (∃ pad?, EndsAlike 1 pad? x y ∧
        EndsAlike 1 pad? (Setup.standard.evalProgram 0 call x.2)
          (Setup.standard.evalProgram 0 call y.2)) ∧
      (Setup.standard.evalProgram 0 call x.2).2.sink.written = "hi\n" := by
  intro machine condition body first block chain inner nested x y call
  have ignores : ∀ pad, Setup.standard.host.Ignores pad := Host.onlyPrints_standard.ignores
  have global : Machine.initial.newGlobalScope.2.store.Closed :=
    Store.closed_newGlobalScope Store.closed_empty
  obtain ⟨closed, grown⟩ := closed_afterPrograms global (by decide) (ignores ⟨1, 0, by decide⟩)
    [[.declare "out" false none ⟨0, 7⟩]]
  have made : 0 < machine.store.scopes.size := Nat.lt_of_lt_of_le (by decide) grown
  obtain ⟨pad?, -, alike, -, later⟩ := elseif_nested Setup.standard closed made
    (fun pad _ _ => ignores pad) condition first body block [] none ⟨0, 67⟩ ⟨17, 67⟩
  have one : machine.store.scopes.size = 1 := by decide +kernel
  rw [one] at alike later
  exact ⟨closed, made, ignores, by decide +kernel, by decide +kernel,
    ⟨pad?, alike, later [] call⟩, by decide +kernel⟩

end Setup

end Scriptlet
