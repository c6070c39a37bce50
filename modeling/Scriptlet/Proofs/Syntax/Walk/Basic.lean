import Scriptlet.Syntax.Parser

/-!
# Walking over tokens by index

A walker stands at an index of a sequence of tokens and looks tokens up without asking whether there
are any at the index. So that it cannot run off the end, the sequence has to end with an end marker
(`closed`). Nothing else protects it: a look-up behind the last token is no fault of the grammar, it
stops the walk (`Halt.outOfBounds`).

The trace keeps what a walk has done, also of one that stops: every look-up with the place where the
walker stood, and every expression and statement that was read with the places where it begins and
ends.
-/
namespace Scriptlet

namespace Syntax

/-- The tokens with an end marker behind them, unless one stands there already. -/
def closed (tokens : List Token) : List Token :=
  match tokens.getLast? with
  | some last =>
    if Cursor.isMarker last then tokens else tokens ++ [.endMarker last.span.stop]
  | none => [.endMarker 0]

/-- The index of the first end marker. -/
def firstMarker (tokens : List Token) : Nat := (closed tokens).findIdx Cursor.isMarker

namespace Walk

inductive Event where
  /-- The walker stood at `current` and looked up the token at `index`. -/
  | lookup (current index : Nat)
  /-- A whole expression or statement was read. -/
  | reading (start stop : Nat)
  deriving DecidableEq, Repr

/-- Why a walk stops early. -/
inductive Halt where
  | fault (fault : Located Fault)
  /-- A look-up at an index without a token. -/
  | outOfBounds (index : Nat)
  /-- The parenthesis that begins arguments is gone. -/
  | argumentsGone (found : Option String) (span : Span)
  /-- A loop or a recursion has used up its rounds. -/
  | unfinished
  deriving DecidableEq, Repr

structure Walker where
  tokens : List Token
  /-- The index of the next token. -/
  current : Nat
  trace : List Event
  deriving DecidableEq, Repr

namespace Walker

def ofTokens (tokens : List Token) : Walker := ⟨closed tokens, 0, []⟩

def record (event : Event) (w : Walker) : Walker := { w with trace := w.trace ++ [event] }

end Walker

end Walk

/-- A walk that stops early leaves its walker behind. -/
abbrev Walk := ExceptT Walk.Halt (StateM Walk.Walker)

namespace Walk

variable {α β : Type}

def lookup (index : Nat) : Walk Token := do
  let w ← get
  set (w.record (.lookup w.current index))
  match w.tokens[index]? with
  | some token => return token
  | none => throw (.outOfBounds index)

def peek : Walk Token := do
  lookup (← get).current

/-- The token before the next one. At the beginning it is the next one. -/
def previous : Walk Token := do
  lookup ((← get).current - 1)

def isAtEnd : Walk Bool := do
  return Cursor.isMarker (← peek)

/-- Goes on by one token, but not past an end marker. -/
def advance : Walk Token := do
  if ← isAtEnd then peek
  else
    modify fun w => { w with current := w.current + 1 }
    previous

def check (kind : Token.Kind) : Walk Bool := do
  if ← isAtEnd then return false else return (← peek).kind = kind

def accept (kind : Token.Kind) : Walk Bool := do
  if ← check kind then
    let _ ← advance
    return true
  else return false

def checkSymbol (symbols : List String) : Walk Bool := do
  if ← check .arithmetic then return symbols.contains (← peek).text else return false

def checkLevel : Level → Walk Bool
  | .logical => check .logical
  | .comparison => check .comparison
  | .additive => checkSymbol ["+", "-"]
  | .multiplicative => checkSymbol ["*", "/", "%"]

def previousSpan : Walk Span := do
  return (← previous).span

def missingSpan : Walk Span := do
  if (← isAtEnd) && decide (0 < (← get).current) then
    return .single (← lookup ((← get).current - 1)).span.stop
  else return (← peek).span

/-- The text of the next token, if it is no end marker. -/
def describe : Walk (Option String) := do
  let token ← peek
  return if Cursor.isMarker token then none else some token.text

def fail (cause : Fault) (span : Span) : Walk α :=
  throw (.fault ⟨cause, span⟩)

/-- Reads a token of the only kind that can stand here. -/
def consume (kind : Token.Kind) (otherwise : Option String → Span → Halt) : Walk Token := do
  if ← check kind then advance
  else
    let span ← missingSpan
    throw (otherwise (← describe) span)

def expect (expected : Expected) : Walk Token :=
  consume expected.kind fun found span => .fault ⟨.missing expected found, span⟩

def requireOperand (operator : Token) : Walk Unit := do
  if ← isAtEnd then fail (.missingOperand operator.text) operator.span else return ()

/-- Enters a reading into the trace when it is over. -/
def traced (p : Walk α) : Walk α := do
  let start := (← get).current
  let a ← p
  modify fun w => w.record (.reading start w.current)
  return a

/-- At most `limit` rounds of a walk that calls itself. -/
def rounds (body : (α → Walk β) → α → Walk β) : Nat → α → Walk β
  | 0, _ => throw .unfinished
  | limit + 1, a => body (rounds body limit) a

section
variable (limit : Nat)

/-- What `item` reads, once or more, with commas between. -/
def commaSeparated (item : Walk α) : Walk (List α) :=
  rounds (fun again (_ : Unit) => do
    let first ← item
    if ← accept .comma then return first :: (← again ()) else return [first]) limit ()

def listUntil (closing : Token.Kind) (item : Walk α) : Walk (List α) := do
  if ← check closing then return [] else commaSeparated limit item

/-- What `item` reads, again and again until the sequence has ended. -/
def sequenceUntil (ended : Walk Bool) (item : Walk α) : Walk (List α) :=
  rounds (fun again (_ : Unit) => do
    if ← ended then return [] else return (← item) :: (← again ())) limit ()

/-! The constructs of expressions, given a walk over a whole expression. -/

section
variable (expression : Walk Expr)

def group (opening : Token) : Walk Expr := do
  if ← check .closeParen then
    fail .emptyParentheses (opening.span.cover (← peek).span)
  else
    let inner ← expression
    let _ ← expect .groupEnd
    return inner

def primary : Walk Expr := do
  if ← isAtEnd then fail .unexpectedEnd (← peek).span
  else
    let token ← advance
    match token.kind with
    | .name => return .name token.text token.span
    | .number =>
      match Number.ofNumeral? token.text.toList with
      | some value => return .number value token.span
      | none => fail (.invalidNumber token.text) token.span
    | .text => return .text (Parse.unquoted token.text) token.span
    | .openParen => group expression token
    | kind => fail (.unexpectedToken kind token.text) token.span

def members : Expr → Walk Expr :=
  rounds (fun again object => do
    if ← accept .period then
      let property ← expect .memberName
      again (.member object property.text (object.span.cover property.span))
    else return object) limit

def member : Walk Expr := do
  members limit (← primary expression)

def arguments : Walk (List Expr × Span) := do
  let _ ← consume .openParen .argumentsGone
  let args ← listUntil limit .closeParen expression
  let closing ← expect .argumentsEnd
  return (args, closing.span)

def calls : Expr → Walk Expr :=
  rounds (fun again callee => do
    if ← check .openParen then
      let (args, stop) ← arguments limit expression
      again (.call callee args (callee.span.cover stop))
    else return callee) limit

def call : Walk Expr := do
  let callee ← member limit expression
  if ← check .openParen then calls limit expression callee else return callee

def unary : Walk Expr :=
  rounds (fun again (_ : Unit) => do
    if ← check .negation then
      let operator ← advance
      requireOperand operator
      let operand ← again ()
      return .not operand (operator.span.cover operand.span)
    else call limit expression) limit ()

def operations (operand : Walk Expr) (level : Level) : Expr → Walk Expr :=
  rounds (fun again left => do
    if ← checkLevel level then
      let token ← advance
      match level.operator? token.text with
      | some op =>
        requireOperand token
        let right ← operand
        again (.binary op left right (left.span.cover right.span))
      | none => fail (.unknownOperator token.text) token.span
    else return left) limit

def chain (operand : Walk Expr) (level : Level) : Walk Expr := do
  operations limit operand level (← operand)

def logical : Walk Expr :=
  Level.all.foldl (chain limit) (unary limit expression)

def property : Walk Property := do
  let key ← expect .propertyName
  let _ ← expect (.propertyValue key.text)
  let value ← expression
  return .mk key.text value (key.span.cover value.span)

def objectOrLogical : Walk Expr := do
  if ← check .openBrace then
    let opening ← advance
    let properties ← listUntil limit .closeBrace (property expression)
    let closing ← expect .objectEnd
    return .object properties (opening.span.cover closing.span)
  else logical limit expression

def assignment : Walk Expr := do
  let target ← objectOrLogical limit expression
  if ← accept .assign then
    let operator ← previous
    requireOperand operator
    let value ← expression
    return .assign target value (target.span.cover value.span)
  else return target

end

def expression : Walk Expr :=
  rounds (fun again (_ : Unit) => traced (assignment limit (again ()))) limit ()

def blockEnded : Walk Bool := do
  if ← check .closeBrace then return true else isAtEnd

/-! The constructs of statements, given a walk over a single statement. -/

def declaration : Walk Stmt := do
  let keyword ← advance
  let constant : Bool := keyword.kind = .constWord
  let name ← expect (.declaredName keyword.text)
  if ← accept .semicolon then
    let span := keyword.span.cover (← previousSpan)
    if constant then fail (.constantWithoutValue name.text) span
    else return .declare name.text constant none span
  else
    let _ ← expect (.initializer name.text)
    let value ← expression limit
    let _ ← accept .semicolon
    return .declare name.text constant (some value) (keyword.span.cover (← previousSpan))

def parameter : Walk String := do
  match ← expression limit with
  | .name name _ => return name
  | other => fail (.parameterNotName other.render) other.span

def condition (clause : Clause) : Walk Expr := do
  let _ ← expect (.condition clause)
  if ← check .closeParen then fail (.emptyCondition clause) (← peek).span
  else
    let value ← expression limit
    let _ ← expect (.conditionEnd clause)
    return value

def expressionStatement : Walk Stmt := do
  let start := (← peek).span
  let value ← expression limit
  let _ ← accept .semicolon
  return .expr value (start.cover (← previousSpan))

section
variable (statement : Walk Stmt)

def block (role : BlockRole) : Walk (List Stmt) := do
  let opening ← expect (.block role)
  let statements ← sequenceUntil limit blockEnded statement
  let closing ← expect (.blockEnd role)
  if statements.isEmpty then fail (.emptyBlock role) (opening.span.cover closing.span)
  else return statements

def functionDeclaration : Walk Stmt := do
  let keyword ← advance
  let name ← expect .functionName
  let _ ← expect .parameters
  let params ← listUntil limit .closeParen (parameter limit)
  let _ ← expect .parametersEnd
  let body ← block limit statement .function
  return .function name.text params body (keyword.span.cover (← previousSpan))

def alternatives : Walk (List Alternative) :=
  rounds (fun again (_ : Unit) => do
    if ← accept .elseIfWord then
      let guard ← condition limit .elseIfClause
      let body ← block limit statement (.clause .elseIfClause)
      return .mk guard body :: (← again ())
    else return []) limit ()

def conditional : Walk Stmt := do
  let keyword ← advance
  let guard ← condition limit .ifClause
  let body ← block limit statement (.clause .ifClause)
  let others ← alternatives limit statement
  let otherwise ←
    if ← accept .elseWord then some <$> block limit statement .otherwise else pure none
  return .branch guard body others otherwise (keyword.span.cover (← previousSpan))

end

def statement : Walk Stmt :=
  rounds (fun again (_ : Unit) => traced do
    match (← peek).kind with
    | .letWord | .constWord => declaration limit
    | .fnWord => functionDeclaration limit (again ())
    | .ifWord => conditional limit (again ())
    | _ => expressionStatement limit) limit ()

def program : Walk Program := sequenceUntil limit isAtEnd (statement limit)

end

end Walk

/-- Walks over tokens from their beginning, with `limit` rounds for every loop and recursion. -/
def walk (limit : Nat) (tokens : List Token) : Except Walk.Halt Program × Walk.Walker :=
  Walk.program limit (.ofTokens tokens)

end Syntax

end Scriptlet
