import Scriptlet.Eval.Basic

/-!
# Properties that computations hand on

Some properties of a computation, or of several that differ in their native functions only, are
handed on from two computations to one after the other. If the operations on the machine have such a
property, and the native functions too, then everything that is made of them has it: whatever a
program does and however deep calls are nested (`Compositional.evalProgram`).
-/
namespace Scriptlet

namespace Eval

/-- The faults that evaluation has without the help of native functions. -/
def Fault.IsOwn : Fault → Prop
  | .outputFailed _ | .raised _ _ => False
  | .scope _ | .divisionByZero | .memberNotFound _ | .memberOfNonObject _ _ | .invalidTarget _
  | .notCallable _ => True

/-- A property of families of computations that the operations on the machine have, and that one
computation after the other has if both have it. -/
structure Compositional {ι : Type} (P : ∀ α : Type, (ι → Run α) → Prop) : Prop where
  pure : ∀ {α} (a : α), P α fun _ => pure a
  fail : ∀ {α cause} span, cause.IsOwn → P α fun _ => Run.fail cause span
  unfinished : ∀ {α}, P α fun _ => Run.unfinished
  newScope : ∀ parent, P _ fun _ => Run.newScope parent
  newIdentity : P _ fun _ => Run.newIdentity
  get : ∀ scope name span, P _ fun _ => Run.get scope name span
  declare : ∀ scope name value constant span,
    P _ fun _ => Run.declare scope name value constant span
  assign : ∀ scope name value span, P _ fun _ => Run.assign scope name value span
  bind : ∀ {α β} {first : ι → Run α} {second : ι → α → Run β}, P α first →
    (∀ a, P β fun i => second i a) → P β fun i => first i >>= second i

/-- Callers whose calls have a property, whatever is called. -/
def Caller.All {ι : Type} (callers : ι → Caller) (P : ∀ α : Type, (ι → Run α) → Prop) : Prop :=
  ∀ callee args site span, P Value fun i => callers i callee args site span

namespace Compositional

variable {ι : Type} {P : ∀ α : Type, (ι → Run α) → Prop} {callers : ι → Caller}

/-- Operators fail for division by zero alone. -/
theorem operator (law : Compositional P) (op : Operator) (a b : Value) (span : Span) :
    P Value fun _ => Run.ofExcept span (op.apply a b) := by
  cases op with
  | connective op => exact law.pure _
  | comparison op => exact law.pure _
  | arithmetic op =>
    simp only [Operator.apply, Arithmetic.apply]
    split
    · next x y =>
      rcases op.onNumbers_cases x y with ⟨failed, -⟩ | ⟨z, done⟩
      · rw [failed]
        exact law.fail span trivial
      · rw [done]
        exact law.pure _
    · exact law.pure _
    · exact law.pure _

theorem memberOf (law : Compositional P) (object : Expr) (property : String) (span : Span)
    (value : Value) : P Value fun _ => Eval.memberOf object property span value := by
  unfold Eval.memberOf
  split
  · split
    · exact law.pure _
    · exact law.fail span trivial
  · exact law.fail _ trivial

mutual

theorem evalExpr (law : Compositional P) (calls : Caller.All callers P) (scope : ScopeId) :
    ∀ e : Expr, P Value fun i => Eval.evalExpr (callers i) scope e
  | .number n _ => law.pure _
  | .text s _ => law.pure _
  | .name name span => law.get scope name span
  | .binary op left right span => by
    simp only [Eval.evalExpr]
    apply law.bind (law.evalExpr calls scope left)
    intro a
    apply law.bind (law.evalExpr calls scope right)
    intro b
    exact law.operator op a b span
  | .not operand _ => by
    simp only [Eval.evalExpr]
    exact law.bind (law.evalExpr calls scope operand) fun a => law.pure _
  | .assign target value span => by
    cases target with
    | name name _ =>
      simp only [Eval.evalExpr]
      apply law.bind (law.evalExpr calls scope value)
      intro a
      exact law.bind (law.assign scope name a span) fun _ => law.pure a
    | _ => exact law.fail _ trivial
  | .object properties _ => by
    simp only [Eval.evalExpr]
    apply law.bind (law.evalProperties calls scope [] properties)
    intro entries
    exact law.bind law.newIdentity fun id => law.pure _
  | .member object property span => by
    simp only [Eval.evalExpr]
    apply law.bind (law.evalExpr calls scope object)
    exact law.memberOf object property span
  | .call callee args span => by
    simp only [Eval.evalExpr]
    apply law.bind (law.evalArgs calls scope args)
    intro values
    exact law.bind (law.evalExpr calls scope callee) fun function =>
      calls function values scope span

theorem evalArgs (law : Compositional P) (calls : Caller.All callers P) (scope : ScopeId) :
    ∀ args : List Expr, P (List Value) fun i => Eval.evalArgs (callers i) scope args
  | [] => law.pure []
  | arg :: rest => by
    simp only [Eval.evalArgs]
    apply law.bind (law.evalExpr calls scope arg)
    intro value
    exact law.bind (law.evalArgs calls scope rest) fun values => law.pure _

theorem evalProperties (law : Compositional P) (calls : Caller.All callers P) (scope : ScopeId)
    (entries : Entries) : ∀ properties : List Property,
      P Entries fun i => Eval.evalProperties (callers i) scope entries properties
  | [] => law.pure entries
  | .mk key value _ :: rest => by
    simp only [Eval.evalProperties]
    apply law.bind (law.evalExpr calls scope value)
    intro a
    exact law.evalProperties calls scope _ rest

end

mutual

theorem evalStmt (law : Compositional P) (calls : Caller.All callers P) (scope : ScopeId) :
    ∀ statement : Stmt, P Value fun i => Eval.evalStmt (callers i) scope statement
  | .expr value _ => law.evalExpr calls scope value
  | .declare name constant (some value) span => by
    simp only [Eval.evalStmt]
    apply law.bind (law.evalExpr calls scope value)
    intro a
    exact law.bind (law.declare scope name a constant span) fun _ => law.pure a
  | .declare name constant none span => by
    simp only [Eval.evalStmt]
    apply law.bind (law.pure Value.null)
    intro a
    exact law.bind (law.declare scope name a constant span) fun _ => law.pure a
  | .function name params body span => by
    simp only [Eval.evalStmt]
    apply law.bind law.newIdentity
    intro id
    exact law.bind (law.declare scope name _ true span) fun _ => law.pure _
  | .branch condition body alternatives (some block) _ => by
    simp only [Eval.evalStmt]
    apply law.bind (law.evalExpr calls scope condition)
    intro guard
    split
    · exact law.bind (law.newScope scope) fun inner => law.evalSequence calls inner .null body
    · apply law.bind (law.evalAlternatives calls scope alternatives)
      intro taken
      cases taken with
      | some value => exact law.pure value
      | none =>
        exact law.bind (law.newScope scope) fun inner => law.evalSequence calls inner .null block
  | .branch condition body alternatives none _ => by
    simp only [Eval.evalStmt]
    apply law.bind (law.evalExpr calls scope condition)
    intro guard
    split
    · exact law.bind (law.newScope scope) fun inner => law.evalSequence calls inner .null body
    · apply law.bind (law.evalAlternatives calls scope alternatives)
      intro taken
      cases taken <;> exact law.pure _

theorem evalAlternatives (law : Compositional P) (calls : Caller.All callers P) (scope : ScopeId) :
    ∀ alternatives : List Alternative,
      P (Option Value) fun i => Eval.evalAlternatives (callers i) scope alternatives
  | [] => law.pure none
  | .mk condition body :: rest => by
    simp only [Eval.evalAlternatives]
    apply law.bind (law.evalExpr calls scope condition)
    intro guard
    split
    · apply law.bind (law.newScope scope)
      intro inner
      exact law.bind (law.evalSequence calls inner .null body) fun _ => law.pure _
    · exact law.evalAlternatives calls scope rest

theorem evalSequence (law : Compositional P) (calls : Caller.All callers P) (scope : ScopeId)
    (last : Value) : ∀ statements : List Stmt,
      P Value fun i => Eval.evalSequence (callers i) scope last statements
  | [] => law.pure last
  | statement :: rest => by
    simp only [Eval.evalSequence]
    apply law.bind (law.evalStmt calls scope statement)
    intro value
    exact law.evalSequence calls scope value rest

end

theorem bindParams (law : Compositional P) (scope : ScopeId) (span : Span) (params : List String)
    (args : List Value) : P Unit fun _ => Eval.bindParams scope span params args := by
  induction params generalizing args with
  | nil => exact law.pure ()
  | cons param params ih =>
    simp only [Eval.bindParams]
    exact law.bind (law.declare scope param _ false span) fun _ => ih _

theorem callClosure (law : Compositional P) (calls : Caller.All callers P) (closure : Closure)
    (args : List Value) (span : Span) :
    P Value fun i => Eval.callClosure (callers i) closure args span := by
  unfold Eval.callClosure
  apply law.bind (law.newScope closure.scope)
  intro scope
  apply law.bind (law.bindParams scope span closure.params args)
  intro _
  exact law.evalSequence calls scope .null closure.body

variable {hosts : ι → Host}

/-- Only calls of native functions depend on the host. -/
theorem invoke (law : Compositional P)
    (natives : ∀ name args site span, P Value fun i => callNative (hosts i) name args site span)
    (depth : Nat) : Caller.All (fun i => Eval.invoke (hosts i) depth) P := by
  induction depth with
  | zero =>
    intro callee args site span
    cases callee with
    | native id name => exact natives name args site span
    | function id closure => exact law.unfinished
    | _ => exact law.fail span trivial
  | succ depth ih =>
    intro callee args site span
    cases callee with
    | native id name => exact natives name args site span
    | function id closure => exact law.callClosure ih closure args span
    | _ => exact law.fail span trivial

theorem evalProgram (law : Compositional P)
    (natives : ∀ name args site span, P Value fun i => callNative (hosts i) name args site span)
    (depth : Nat) (scope : ScopeId) (program : Program) :
    P Value fun i => Eval.evalProgram (hosts i) depth scope program :=
  law.evalSequence (law.invoke natives depth) scope .null program

end Compositional

end Eval

end Scriptlet
