import Scriptlet.Eval.Native
import Scriptlet.Eval.Operation
import Scriptlet.Syntax.Printer

/-!
# Evaluation

Evaluation follows the syntax tree. What a call of a value does is a parameter of it (`Caller`), and
`invoke` supplies that parameter: a call of a declared function evaluates its body, in which calls
may be nested one level less deep. So only calls of declared functions use up the allowed depth.
-/
namespace Scriptlet

namespace Eval

/-- What calling a value with arguments does, in the scope and at the characters of the call. -/
abbrev Caller := Value → List Value → ScopeId → Span → Run Value

/-- The member of a value. -/
def memberOf (object : Expr) (property : String) (span : Span) : Value → Run Value
  | .object _ entries =>
    match Entries.get? property entries with
    | some value => pure value
    | none => Run.fail (.memberNotFound property) span
  | other => Run.fail (.memberOfNonObject object.render other.typeName) object.span

mutual

def evalExpr (caller : Caller) (scope : ScopeId) : Expr → Run Value
  | .number n _ => pure (.number n)
  | .text s _ => pure (.text s)
  | .name name span => Run.get scope name span
  | .binary op left right span => do
    let a ← evalExpr caller scope left
    let b ← evalExpr caller scope right
    Run.ofExcept span (op.apply a b)
  | .not operand _ => do
    let a ← evalExpr caller scope operand
    return .boolean (!a.isTruthy)
  | .assign (.name name _) value span => do
    let a ← evalExpr caller scope value
    Run.assign scope name a span
    return a
  | .assign target _ _ => Run.fail (.invalidTarget target.render) target.span
  | .object properties _ => do
    let entries ← evalProperties caller scope [] properties
    return .object (← Run.newIdentity) entries
  | .member object property span => do
    memberOf object property span (← evalExpr caller scope object)
  | .call callee args span => do
    let values ← evalArgs caller scope args
    let function ← evalExpr caller scope callee
    caller function values scope span

/-- Arguments from left to right. -/
def evalArgs (caller : Caller) (scope : ScopeId) : List Expr → Run (List Value)
  | [] => pure []
  | arg :: rest => do
    let value ← evalExpr caller scope arg
    return value :: (← evalArgs caller scope rest)

/-- Properties in order, added to the entries that are there already. -/
def evalProperties (caller : Caller) (scope : ScopeId) (entries : Entries) :
    List Property → Run Entries
  | [] => pure entries
  | .mk key value _ :: rest => do
    let a ← evalExpr caller scope value
    evalProperties caller scope (entries.insert key a) rest

end

mutual

def evalStmt (caller : Caller) (scope : ScopeId) : Stmt → Run Value
  | .expr value _ => evalExpr caller scope value
  | .declare name constant value span => do
    let a ←
      match value with
      | some value => evalExpr caller scope value
      | none => pure .null
    Run.declare scope name a constant span
    return a
  | .function name params body span => do
    let id ← Run.newIdentity
    Run.declare scope name (.function id ⟨name, params, body, scope⟩) true span
    return .null
  | .branch condition body alternatives otherwise _ => do
    if (← evalExpr caller scope condition).isTruthy then
      evalSequence caller (← Run.newScope scope) .null body
    else
      match ← evalAlternatives caller scope alternatives with
      | some value => return value
      | none =>
        match otherwise with
        | some block => evalSequence caller (← Run.newScope scope) .null block
        | none => return .null

/-- The first alternative whose condition holds, in a scope of its own; `none` if there is none. -/
def evalAlternatives (caller : Caller) (scope : ScopeId) :
    List Alternative → Run (Option Value)
  | [] => pure none
  | .mk condition body :: rest => do
    if (← evalExpr caller scope condition).isTruthy then
      return some (← evalSequence caller (← Run.newScope scope) .null body)
    else evalAlternatives caller scope rest

/-- Statements one after the other, for the value of the last one; `last` is the value of the one
before them. -/
def evalSequence (caller : Caller) (scope : ScopeId) (last : Value) : List Stmt → Run Value
  | [] => pure last
  | statement :: rest => do
    let value ← evalStmt caller scope statement
    evalSequence caller scope value rest

end

/-- Binds parameters to arguments. A missing argument is `null`, a surplus one is dropped. -/
def bindParams (scope : ScopeId) (span : Span) : List String → List Value → Run Unit
  | [], _ => pure ()
  | param :: params, args => do
    Run.declare scope param (args.headD .null) false span
    bindParams scope span params args.tail

/-- Evaluates the body of a function in a new scope inside that of its declaration. -/
def callClosure (caller : Caller) (closure : Closure) (args : List Value) (span : Span) :
    Run Value := do
  let scope ← Run.newScope closure.scope
  bindParams scope span closure.params args
  evalSequence caller scope .null closure.body

/-- Calls a native function, if the host knows it. -/
def callNative (host : Host) (name : String) (args : List Value) (scope : ScopeId) (span : Span) :
    Run Value := fun machine =>
  match host name with
  | none => (.failure ⟨.notCallable "native function", span⟩, machine)
  | some native =>
    match native args scope machine with
    | (.ok value, next) => (.value value, next)
    | (.error cause, next) => (.failure ⟨cause, span⟩, next)

/-- Calls of values with at most `depth` calls of declared functions inside one another. -/
def invoke (host : Host) : (depth : Nat) → Caller
  | depth, callee, args, scope, span =>
    match callee, depth with
    | .native _ name, _ => callNative host name args scope span
    | .function _ _, 0 => Run.unfinished
    | .function _ closure, depth + 1 => callClosure (invoke host depth) closure args span
    | other, _ => Run.fail (.notCallable other.typeName) span

/-- Evaluates a program in a scope. -/
def evalProgram (host : Host) (depth : Nat) (scope : ScopeId) (program : Program) : Run Value :=
  evalSequence (invoke host depth) scope .null program

end Eval

end Scriptlet
