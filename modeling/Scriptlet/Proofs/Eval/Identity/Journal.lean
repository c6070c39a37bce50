import Scriptlet.Interpreter
import Scriptlet.Proofs.Eval.Nodes
import Scriptlet.Proofs.Scope.Reachability

/-!
# Journals of evaluation

A journal writes down what happens in a run, in order: every evaluation of an object literal and of
a declaration of a function, with the value that it makes, and what can be seen on the way, values
at hand together with the state. A journal has no semantics of its own. The states and values in it
are those of the evaluator.
-/
namespace Scriptlet

/-- The values that an evaluation of an object literal or of a declaration of a function makes. -/
inductive Node.Makes : Node → Value → Prop
  | object {properties span id entries} :
      Makes (.expr (.object properties span)) (.object id entries)
  | function {name params body span id scope} :
      Makes (.stmt (.function name params body span)) (.function id ⟨name, params, body, scope⟩)

namespace Eval

inductive Entry where
  /-- A literal or a declaration was evaluated and made a value. The state is the one before. -/
  | made (node : Node) (value : Value) (before : Machine)
  /-- Values were at hand in some state: a callee with its arguments, or a result. -/
  | seen (values : List Value) (state : Machine)

/-- The identity that an entry says was given out. -/
def Entry.given? : Entry → Option Identity
  | .made _ v _ => v.identity?
  | .seen .. => none

/-- What is seen where a run ends: its result, if it has one, and the state that it leaves. -/
def Entry.ending {ε : Type} : Outcome ε Value × Machine → Entry
  | (.value v, state) => .seen [v] state
  | (_, state) => .seen [] state

/-- What is written down of a run from some state. -/
abbrev Log := Machine → List Entry

namespace Log

variable {α : Type}

def silent : Log := fun _ => []

/-- What is written down of two runs one after the other. The second one starts with the result of
the first one, in the state that this leaves. -/
def chained (run : Run α) (log : Log) (next : α → Log) : Log := fun m =>
  log m ++
    match run m with
    | (.value a, n) => next a n
    | _ => []

/-- The end of a run is written down, too. -/
def concluded (run : Run Value) (log : Log) : Log := fun m => log m ++ [.ending (run m)]

end Log

open Log

/-- What is written down of a call. -/
abbrev CallLog := Value → List Value → ScopeId → Span → Log

mutual

def logExpr (caller : Caller) (calls : CallLog) (scope : ScopeId) (e : Expr) : Log :=
  concluded (evalExpr caller scope e) <|
    match e with
    | .number .. | .text .. | .name .. => silent
    | .binary _ left right _ =>
      chained (evalExpr caller scope left) (logExpr caller calls scope left) fun _ =>
        logExpr caller calls scope right
    | .not operand _ => logExpr caller calls scope operand
    | .assign (.name ..) value _ => logExpr caller calls scope value
    | .assign .. => silent
    | .object properties span =>
      chained (evalProperties caller scope [] properties)
        (logProperties caller calls scope [] properties) fun entries m =>
          [.made (.expr (.object properties span)) (.object m.nextIdentity entries) m]
    | .member object _ _ => logExpr caller calls scope object
    | .call callee args span =>
      chained (evalArgs caller scope args) (logArgs caller calls scope args) fun values =>
        chained (evalExpr caller scope callee) (logExpr caller calls scope callee) fun function =>
          calls function values scope span

def logArgs (caller : Caller) (calls : CallLog) (scope : ScopeId) : List Expr → Log
  | [] => silent
  | arg :: rest =>
    chained (evalExpr caller scope arg) (logExpr caller calls scope arg) fun _ =>
      logArgs caller calls scope rest

def logProperties (caller : Caller) (calls : CallLog) (scope : ScopeId) (entries : Entries) :
    List Property → Log
  | [] => silent
  | .mk key value _ :: rest =>
    chained (evalExpr caller scope value) (logExpr caller calls scope value) fun a =>
      logProperties caller calls scope (entries.insert key a) rest

end

mutual

def logStmt (caller : Caller) (calls : CallLog) (scope : ScopeId) (s : Stmt) : Log :=
  concluded (evalStmt caller scope s) <|
    match s with
    | .expr value _ => logExpr caller calls scope value
    | .declare _ _ (some value) _ => logExpr caller calls scope value
    | .declare _ _ none _ => silent
    | .function name params body span => fun m =>
      [.made (.stmt (.function name params body span))
        (.function m.nextIdentity ⟨name, params, body, scope⟩) m]
    | .branch condition body alternatives otherwise _ =>
      chained (evalExpr caller scope condition) (logExpr caller calls scope condition) fun guard =>
        if guard.isTruthy then
          chained (Run.newScope scope) silent fun inner =>
            logSequence caller calls inner body
        else
          chained (evalAlternatives caller scope alternatives)
            (logAlternatives caller calls scope alternatives) fun taken =>
              match taken with
              | some _ => silent
              | none =>
                match otherwise with
                | some block =>
                  chained (Run.newScope scope) silent fun inner =>
                    logSequence caller calls inner block
                | none => silent

def logAlternatives (caller : Caller) (calls : CallLog) (scope : ScopeId) :
    List Alternative → Log
  | [] => silent
  | .mk condition body :: rest =>
    chained (evalExpr caller scope condition) (logExpr caller calls scope condition) fun guard =>
      if guard.isTruthy then
        chained (Run.newScope scope) silent fun inner =>
          logSequence caller calls inner body
      else logAlternatives caller calls scope rest

def logSequence (caller : Caller) (calls : CallLog) (scope : ScopeId) : List Stmt → Log
  | [] => silent
  | statement :: rest =>
    chained (evalStmt caller scope statement) (logStmt caller calls scope statement) fun _ =>
      logSequence caller calls scope rest

end

/-- The body of a function is evaluated in a scope of its own, when its parameters are bound. -/
def logClosure (caller : Caller) (calls : CallLog) (closure : Closure) (args : List Value)
    (span : Span) : Log :=
  chained (Run.newScope closure.scope) silent fun scope =>
    chained (bindParams scope span closure.params args) silent fun _ =>
      logSequence caller calls scope closure.body

/-- A call begins with the called value and the arguments at hand. -/
def logInvoke (host : Host) : (depth : Nat) → CallLog
  | depth, callee, args, _, span => fun m =>
    .seen (callee :: args) m ::
      match callee, depth with
      | .function _ closure, depth + 1 =>
        logClosure (invoke host depth) (logInvoke host depth) closure args span m
      | _, _ => []

def logProgram (host : Host) (depth : Nat) (scope : ScopeId) (program : Program) : Log :=
  logSequence (invoke host depth) (logInvoke host depth) scope program

end Eval

namespace Setup

open Eval

/-- The journal of a source: that of its program, and its end. -/
def logSource (setup : Setup) (scope : ScopeId) (source : String) (m : Machine) : List Entry :=
  (match parseSource source with
    | .error _ => []
    | .ok program => logProgram setup.host setup.depth scope program m) ++
    [.ending (setup.evalSource scope source m)]

/-- The journal of some sources that are evaluated one after the other, each in a scope of its own
choice, and the state at the end. -/
def logSession (setup : Setup) : List (ScopeId × String) → Machine → List Entry
  | [], m => [.seen [] m]
  | (scope, source) :: rest, m =>
    setup.logSource scope source m ++ setup.logSession rest (setup.evalSource scope source m).2

end Setup

end Scriptlet
