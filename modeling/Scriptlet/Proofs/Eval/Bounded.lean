import Scriptlet.Eval.Basic

/-!
# Evaluation with a bound on its nesting

To evaluate a node is to evaluate its parts first, and for a call of a declared function also the
statements of its body. `Evaluator.within` is an evaluator that gives up where more than a given
number of nodes are evaluated inside one another, whether these nodes are parts of each other or
belong to functions that are called. Where it does not give up it does what the evaluator does
(`evalProgram_of_within`). The height of a syntax tree is how deep its nodes are nested.
-/
namespace Scriptlet

namespace Eval

/-- What evaluates single nodes in a scope. -/
structure Evaluator where
  expr : ScopeId → Expr → Run Value
  stmt : ScopeId → Stmt → Run Value

namespace Evaluator

section
variable (inner : Evaluator)

def args (scope : ScopeId) : List Expr → Run (List Value)
  | [] => pure []
  | arg :: rest => do
    let value ← inner.expr scope arg
    return value :: (← args scope rest)

def properties (scope : ScopeId) (entries : Entries) : List Property → Run Entries
  | [] => pure entries
  | .mk key value _ :: rest => do
    let a ← inner.expr scope value
    properties scope (entries.insert key a) rest

def sequence (scope : ScopeId) (last : Value) : List Stmt → Run Value
  | [] => pure last
  | statement :: rest => do
    let value ← inner.stmt scope statement
    sequence scope value rest

def alternatives (scope : ScopeId) : List Alternative → Run (Option Value)
  | [] => pure none
  | .mk condition body :: rest => do
    if (← inner.expr scope condition).isTruthy then
      return some (← inner.sequence (← Run.newScope scope) .null body)
    else alternatives scope rest

/-- Calls, with the statements of a body evaluated like any others. -/
def call (host : Host) : Caller
  | .native _ name, args, scope, span => callNative host name args scope span
  | .function _ closure, args, _, span => do
    let scope ← Run.newScope closure.scope
    bindParams scope span closure.params args
    inner.sequence scope .null closure.body
  | other, _, _, span => Run.fail (.notCallable other.typeName) span

/-- Evaluates an expression, given what evaluates its parts. -/
def onExpr (host : Host) (scope : ScopeId) : Expr → Run Value
  | .number n _ => pure (.number n)
  | .text s _ => pure (.text s)
  | .name name span => Run.get scope name span
  | .binary op left right span => do
    let a ← inner.expr scope left
    let b ← inner.expr scope right
    Run.ofExcept span (op.apply a b)
  | .not operand _ => do
    let a ← inner.expr scope operand
    return .boolean (!a.isTruthy)
  | .assign (.name name _) value span => do
    let a ← inner.expr scope value
    Run.assign scope name a span
    return a
  | .assign target _ _ => Run.fail (.invalidTarget target.render) target.span
  | .object properties _ => do
    let entries ← inner.properties scope [] properties
    return .object (← Run.newIdentity) entries
  | .member object property span => do
    memberOf object property span (← inner.expr scope object)
  | .call callee args span => do
    let values ← inner.args scope args
    let function ← inner.expr scope callee
    inner.call host function values scope span

/-- Evaluates a statement, given what evaluates its parts. -/
def onStmt (scope : ScopeId) : Stmt → Run Value
  | .expr value _ => inner.expr scope value
  | .declare name constant value span => do
    let a ←
      match value with
      | some value => inner.expr scope value
      | none => pure .null
    Run.declare scope name a constant span
    return a
  | .function name params body span => do
    let id ← Run.newIdentity
    Run.declare scope name (.function id ⟨name, params, body, scope⟩) true span
    return .null
  | .branch condition body alternatives otherwise _ => do
    if (← inner.expr scope condition).isTruthy then
      inner.sequence (← Run.newScope scope) .null body
    else
      match ← inner.alternatives scope alternatives with
      | some value => return value
      | none =>
        match otherwise with
        | some block => inner.sequence (← Run.newScope scope) .null block
        | none => return .null

end

/-- Evaluates nodes with at most `room` of them inside one another. -/
def within (host : Host) : (room : Nat) → Evaluator
  | 0 => ⟨fun _ _ => Run.unfinished, fun _ _ => Run.unfinished⟩
  | room + 1 => ⟨(within host room).onExpr host, (within host room).onStmt⟩

end Evaluator

/-- Evaluates a program in a scope, with at most `room` nodes inside one another. -/
def evalWithin (host : Host) (room : Nat) (scope : ScopeId) (program : Program) : Run Value :=
  (Evaluator.within host room).sequence scope .null program

/-! The bounded evaluator against the one without a bound. -/

namespace Run

variable {α β : Type}

/-- Where the first computation is not cut short, the second one does the same. -/
def Approximates (bounded full : Run α) : Prop :=
  ∀ m, (bounded m).1 ≠ .unfinished → full m = bounded m

theorem Approximates.refl (run : Run α) : run.Approximates run := fun _ _ => rfl

theorem unfinished_approximates (full : Run α) : (unfinished : Run α).Approximates full :=
  fun _ ended => absurd rfl ended

theorem Approximates.bind {first full : Run α} {second rest : α → Run β}
    (h : first.Approximates full) (next : ∀ a, (second a).Approximates (rest a)) :
    (first >>= second).Approximates (full >>= rest) := by
  intro m ended
  rw [bind_apply] at ended ⊢
  rw [bind_apply]
  have same := h m
  cases run : first m with
  | mk outcome n =>
    rw [run] at ended same
    cases outcome with
    | value a =>
      rw [same nofun]
      exact next a n ended
    | failure e => rw [same nofun]
    | unfinished => exact absurd rfl ended

end Run

open Run (Approximates unfinished_approximates)

namespace Evaluator

/-- An evaluator of nodes that does what is done with some calls, where it does not give up. -/
structure Approximates (inner : Evaluator) (caller : Caller) : Prop where
  expr : ∀ scope e, (inner.expr scope e).Approximates (evalExpr caller scope e)
  stmt : ∀ scope s, (inner.stmt scope s).Approximates (evalStmt caller scope s)

variable {host : Host} {inner : Evaluator} {caller : Caller}

theorem args_approximates (parts : inner.Approximates caller) (scope : ScopeId)
    (args : List Expr) : (inner.args scope args).Approximates (evalArgs caller scope args) := by
  induction args with
  | nil => exact .refl _
  | cons arg rest ih =>
    rw [args, evalArgs]
    apply (parts.expr scope arg).bind
    intro _
    exact ih.bind fun _ => .refl _

theorem properties_approximates (parts : inner.Approximates caller) (scope : ScopeId)
    (properties : List Property) (entries : Entries) :
    (inner.properties scope entries properties).Approximates
      (evalProperties caller scope entries properties) := by
  induction properties generalizing entries with
  | nil => exact .refl _
  | cons property rest ih =>
    obtain ⟨key, value, span⟩ := property
    rw [Evaluator.properties, evalProperties]
    apply (parts.expr scope value).bind
    intro _
    exact ih _

theorem sequence_approximates (parts : inner.Approximates caller) (scope : ScopeId)
    (statements : List Stmt) (last : Value) :
    (inner.sequence scope last statements).Approximates
      (evalSequence caller scope last statements) := by
  induction statements generalizing last with
  | nil => exact .refl _
  | cons statement rest ih =>
    rw [sequence, evalSequence]
    apply (parts.stmt scope statement).bind
    intro _
    exact ih _

theorem block_approximates (parts : inner.Approximates caller) (scope : ScopeId)
    (body : List Stmt) :
    (Run.newScope scope >>= fun block => inner.sequence block .null body).Approximates
      (Run.newScope scope >>= fun block => evalSequence caller block .null body) :=
  (Approximates.refl _).bind fun block => sequence_approximates parts block body .null

theorem alternatives_approximates (parts : inner.Approximates caller) (scope : ScopeId)
    (alternatives : List Alternative) :
    (inner.alternatives scope alternatives).Approximates
      (evalAlternatives caller scope alternatives) := by
  induction alternatives with
  | nil => exact .refl _
  | cons alternative rest ih =>
    obtain ⟨condition, body⟩ := alternative
    rw [Evaluator.alternatives, evalAlternatives]
    apply (parts.expr scope condition).bind
    intro guard
    split
    · rw [← bind_assoc, ← bind_assoc]
      exact (block_approximates parts scope body).bind fun _ => .refl _
    · exact ih

theorem onExpr_approximates (parts : inner.Approximates caller)
    (calls : ∀ f args scope span,
      (inner.call host f args scope span).Approximates (caller f args scope span))
    (scope : ScopeId) (e : Expr) :
    (inner.onExpr host scope e).Approximates (evalExpr caller scope e) := by
  cases e with
  | number | text | name => exact .refl _
  | binary op left right span =>
    rw [onExpr, evalExpr]
    apply (parts.expr scope left).bind
    intro _
    exact (parts.expr scope right).bind fun _ => .refl _
  | not operand span =>
    rw [onExpr, evalExpr]
    exact (parts.expr scope operand).bind fun _ => .refl _
  | assign target value span =>
    cases target with
    | name =>
      rw [onExpr, evalExpr]
      exact (parts.expr scope value).bind fun _ => .refl _
    | _ => exact .refl _
  | object properties span =>
    rw [onExpr, evalExpr]
    exact (properties_approximates parts scope properties []).bind fun _ => .refl _
  | member object property span =>
    rw [onExpr, evalExpr]
    exact (parts.expr scope object).bind fun _ => .refl _
  | call callee args span =>
    rw [onExpr, evalExpr]
    apply (args_approximates parts scope args).bind
    intro values
    apply (parts.expr scope callee).bind
    intro f
    exact calls f values scope span

theorem onStmt_approximates (parts : inner.Approximates caller) (scope : ScopeId) (s : Stmt) :
    (inner.onStmt scope s).Approximates (evalStmt caller scope s) := by
  cases s with
  | expr value span => exact parts.expr scope value
  | declare name constant value span =>
    cases value with
    | some value =>
      rw [onStmt, evalStmt]
      exact (parts.expr scope value).bind fun _ => .refl _
    | none => exact .refl _
  | function => exact .refl _
  | branch condition body alternatives otherwise span =>
    rw [onStmt.eq_def, evalStmt.eq_def]
    apply (parts.expr scope condition).bind
    intro guard
    split
    · exact block_approximates parts scope body
    · apply (alternatives_approximates parts scope alternatives).bind
      intro taken
      cases taken with
      | some value => exact .refl _
      | none =>
        cases otherwise with
        | some block => exact block_approximates parts scope block
        | none => exact .refl _

/-- Each call of a declared function is a node that is evaluated, so that there is no less room for
calls than for nodes. -/
theorem within_approximates (host : Host) {room depth : Nat} (deep : room ≤ depth) :
    (within host room).Approximates (invoke host depth) := by
  induction room generalizing depth with
  | zero => exact ⟨fun _ _ => unfinished_approximates _, fun _ _ => unfinished_approximates _⟩
  | succ room ih =>
    cases depth with
    | zero => cases deep
    | succ depth =>
      have parts := ih (Nat.le_of_succ_le deep)
      have bodies := ih (Nat.le_of_succ_le_succ deep)
      have calls : ∀ f args scope span, ((within host room).call host f args scope span).Approximates
          (invoke host (depth + 1) f args scope span) := by
        intro f args scope span
        cases f with
        | function id closure =>
          apply (Approximates.refl _).bind
          intro inner
          apply (Approximates.refl _).bind
          intro _
          exact sequence_approximates bodies inner closure.body .null
        | _ => exact .refl _
      exact ⟨onExpr_approximates parts calls, onStmt_approximates parts⟩

end Evaluator

/-- Where the bounded evaluator does not give up, the evaluator does the same. -/
theorem evalProgram_of_within {host : Host} {room depth : Nat} (deep : room ≤ depth)
    {scope : ScopeId} {program : Program} {m : Machine}
    (ended : (evalWithin host room scope program m).1 ≠ .unfinished) :
    evalProgram host depth scope program m = evalWithin host room scope program m :=
  Evaluator.sequence_approximates (Evaluator.within_approximates host deep) scope program .null m
    ended

end Eval

mutual

/-- How many expressions stand inside one another at most. -/
def Expr.height : Expr → Nat
  | .assign target value _ => max target.height value.height + 1
  | .object properties _ => propertiesHeight properties + 1
  | .binary _ left right _ => max left.height right.height + 1
  | .not operand _ => operand.height + 1
  | .call callee args _ => max callee.height (exprsHeight args) + 1
  | .member object _ _ => object.height + 1
  | .name .. | .number .. | .text .. => 1

def exprsHeight : List Expr → Nat
  | [] => 0
  | e :: rest => max e.height (exprsHeight rest)

def propertiesHeight : List Property → Nat
  | [] => 0
  | .mk _ value _ :: rest => max value.height (propertiesHeight rest)

end

mutual

/-- How many statements and expressions stand inside one another at most. -/
def Stmt.height : Stmt → Nat
  | .declare _ _ (some value) _ => value.height + 1
  | .declare _ _ none _ => 1
  | .function _ _ body _ => stmtsHeight body + 1
  | .branch condition body alternatives (some block) _ =>
    max (max condition.height (stmtsHeight body))
      (max (alternativesHeight alternatives) (stmtsHeight block)) + 1
  | .branch condition body alternatives none _ =>
    max (max condition.height (stmtsHeight body)) (alternativesHeight alternatives) + 1
  | .expr value _ => value.height + 1

def stmtsHeight : List Stmt → Nat
  | [] => 0
  | s :: rest => max s.height (stmtsHeight rest)

def alternativesHeight : List Alternative → Nat
  | [] => 0
  | .mk condition body :: rest =>
    max (max condition.height (stmtsHeight body)) (alternativesHeight rest)

end

/-- How deep the nodes of a program are nested. -/
def Program.height (program : Program) : Nat := stmtsHeight program

theorem Stmt.height_branch (condition : Expr) (body : List Stmt) (alternatives : List Alternative)
    (otherwise : Option (List Stmt)) (span : Span) :
    (Stmt.branch condition body alternatives otherwise span).height =
      max (max condition.height (stmtsHeight body))
        (max (alternativesHeight alternatives) (otherwise.elim 0 stmtsHeight)) + 1 := by
  cases otherwise with
  | some block => rw [height, Option.elim]
  | none => rw [height, Option.elim, Nat.max_zero]

theorem Expr.height_pos (e : Expr) : 0 < e.height := by
  cases e <;> rw [height] <;> exact Nat.succ_pos _

theorem Stmt.height_pos (s : Stmt) : 0 < s.height := by
  cases s with
  | declare _ _ value => cases value <;> rw [height] <;> exact Nat.succ_pos _
  | branch => exact height_branch .. ▸ Nat.succ_pos _
  | function | expr => rw [height]; exact Nat.succ_pos _

end Scriptlet
