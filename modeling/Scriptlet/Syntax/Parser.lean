import Scriptlet.Syntax.Cursor
import Scriptlet.Syntax.Printer
import Scriptlet.Number.Numeral

/-!
# From tokens to syntax trees

One parser for each construct. Those of expressions take the parser of whole expressions as an
argument, those of statements the parser of statements, and `Parse.fix` closes the circle. Binary
operators have four levels, and a chain of operators of one level groups to the left. An opening
parenthesis behind a complete operand always begins its arguments.
-/
namespace Scriptlet

namespace Syntax

/-- The levels of binary operators. -/
inductive Level where
  | logical | comparison | additive | multiplicative
  deriving DecidableEq, Repr

namespace Level

/-- The levels from the tightest to the loosest. -/
def all : List Level := [multiplicative, additive, comparison, logical]

/-- Whether a token continues a chain of a level. The arithmetic levels tell their tokens apart by
the symbol, the others take every token of their kind. -/
def continuedBy (level : Level) (token : Token) : Bool :=
  match level with
  | logical => token.kind = .logical
  | comparison => token.kind = .comparison
  | additive => token.kind = .arithmetic && (token.text = "+" || token.text = "-")
  | multiplicative =>
    token.kind = .arithmetic && (token.text = "*" || token.text = "/" || token.text = "%")

/-- The operator of a level with a given symbol. -/
def operator? (level : Level) (symbol : String) : Option Operator :=
  match level with
  | logical => (Connective.all.find? (·.symbol = symbol)).map .connective
  | comparison => (Comparison.all.find? (·.symbol = symbol)).map .comparison
  | additive | multiplicative => (Arithmetic.all.find? (·.symbol = symbol)).map .arithmetic

end Level

namespace Parse

/-- Something has to follow an operator. -/
def requireOperand (operator : Token) : Parse Unit := do
  if (← peek?).isNone then fail (.missingOperand operator.text) operator.span

/-- An expression in parentheses, behind the opening one. Parentheses leave no node. -/
def group (expression : Parse Expr) (opening : Token) : Parse Expr := do
  if ← nextIs .closeParen then
    fail .emptyParentheses (opening.span.cover (← get).here)
  let inner ← expression
  let _ ← expect .groupEnd
  return inner

/-- The text of a literal without its first and its last character, the quotes. -/
def unquoted (text : String) : String := String.ofList (text.toList.drop 1).dropLast

def primary (expression : Parse Expr) : Parse Expr := do
  match ← take? fun _ => true with
  | none => fail .unexpectedEnd (← get).finish
  | some token =>
    match token.kind with
    | .name => return .name token.text token.span
    | .number =>
      match Number.ofNumeral? token.text.toList with
      | some value => return .number value token.span
      | none => fail (.invalidNumber token.text) token.span
    | .text => return .text (unquoted token.text) token.span
    | .openParen => group expression token
    | kind => fail (.unexpectedToken kind token.text) token.span

/-- The members taken of an object that was read. -/
def members : Expr → Parse Expr :=
  fix fun again object => do
    if ← accept .period then
      let property ← expect .memberName
      again (.member object property.text (object.span.cover property.span))
    else return object

/-- A primary expression and the members taken of it. -/
def member (expression : Parse Expr) : Parse Expr := do
  members (← primary expression)

/-- The calls made of a callee that was read. -/
def calls (expression : Parse Expr) : Expr → Parse Expr :=
  fix fun again callee => do
    if ← accept .openParen then
      let args ← listUntil .closeParen expression
      let closing ← expect .argumentsEnd
      again (.call callee args (callee.span.cover closing.span))
    else return callee

/-- A member expression and the calls made of it. The result of a call has no members. -/
def call (expression : Parse Expr) : Parse Expr := do
  calls expression (← member expression)

def unary (expression : Parse Expr) : Parse Expr :=
  fix (fun again (_ : Unit) => do
    match ← take? (·.kind = .negation) with
    | some operator =>
      requireOperand operator
      let operand ← again ()
      return .not operand (operator.span.cover operand.span)
    | none => call expression) ()

/-- The operators of a level behind an operand that was read, with their right operands. -/
def operations (operand : Parse Expr) (level : Level) : Expr → Parse Expr :=
  fix fun again left => do
    match ← take? level.continuedBy with
    | some token =>
      match level.operator? token.text with
      | some op =>
        requireOperand token
        let right ← operand
        again (.binary op left right (left.span.cover right.span))
      | none => fail (.unknownOperator token.text) token.span
    | none => return left

/-- Operands with operators of one level between them. -/
def chain (operand : Parse Expr) (level : Level) : Parse Expr := do
  operations operand level (← operand)

def logical (expression : Parse Expr) : Parse Expr :=
  Level.all.foldl chain (unary expression)

def property (expression : Parse Expr) : Parse Property := do
  let key ← expect .propertyName
  let _ ← expect (.propertyValue key.text)
  let value ← expression
  return .mk key.text value (key.span.cover value.span)

/-- An object literal or a chain of operators. An object literal that is not in parentheses is no
operand. -/
def objectOrLogical (expression : Parse Expr) : Parse Expr := do
  match ← take? (·.kind = .openBrace) with
  | some opening =>
    let properties ← listUntil .closeBrace (property expression)
    let closing ← expect .objectEnd
    return .object properties (opening.span.cover closing.span)
  | none => logical expression

/-- Assignments group to the right, and anything may stand on the left of one. -/
def assignment (expression : Parse Expr) : Parse Expr := do
  let target ← objectOrLogical expression
  match ← take? (·.kind = .assign) with
  | some operator =>
    requireOperand operator
    let value ← expression
    return .assign target value (target.span.cover value.span)
  | none => return target

def expression : Parse Expr :=
  fix (fun again (_ : Unit) => assignment (again ())) ()

/-- A declaration of a variable. A semicolon may stand in place of the value of one that is not
constant. -/
def declaration (constant : Bool) : Parse Stmt := do
  let keyword ← take? fun _ => true
  let start ← lastSpan
  let name ← expect (.declaredName ((keyword.map (·.text)).getD ""))
  if ← accept .semicolon then
    let span := start.cover (← lastSpan)
    if constant then fail (.constantWithoutValue name.text) span
    return .declare name.text constant none span
  let _ ← expect (.initializer name.text)
  let value ← expression
  let _ ← accept .semicolon
  return .declare name.text constant (some value) (start.cover (← lastSpan))

/-- Statements in braces, at least one. -/
def block (statement : Parse Stmt) (role : BlockRole) : Parse (List Stmt) := do
  let opening ← expect (.block role)
  let statements ← sequenceUntil (·.kind = .closeBrace) statement
  let closing ← expect (.blockEnd role)
  if statements.isEmpty then fail (.emptyBlock role) (opening.span.cover closing.span)
  return statements

/-- A parameter is read as an expression and has to be a name. -/
def parameter : Parse String := do
  match ← expression with
  | .name name _ => return name
  | other => fail (.parameterNotName other.render) other.span

def functionDeclaration (statement : Parse Stmt) : Parse Stmt := do
  let _ ← take? fun _ => true
  let start ← lastSpan
  let name ← expect .functionName
  let _ ← expect .parameters
  let params ← listUntil .closeParen parameter
  let _ ← expect .parametersEnd
  let body ← block statement .function
  return .function name.text params body (start.cover (← lastSpan))

def condition (clause : Clause) : Parse Expr := do
  let _ ← expect (.condition clause)
  if ← nextIs .closeParen then fail (.emptyCondition clause) (← get).here
  let value ← expression
  let _ ← expect (.conditionEnd clause)
  return value

def alternatives (statement : Parse Stmt) : Parse (List Alternative) :=
  fix (fun again (_ : Unit) => do
    if ← accept .elseIfWord then
      let guard ← condition .elseIfClause
      let body ← block statement (.clause .elseIfClause)
      return .mk guard body :: (← again ())
    else return []) ()

def conditional (statement : Parse Stmt) : Parse Stmt := do
  let _ ← take? fun _ => true
  let start ← lastSpan
  let guard ← condition .ifClause
  let body ← block statement (.clause .ifClause)
  let others ← alternatives statement
  let otherwise ←
    if ← accept .elseWord then some <$> block statement .otherwise else pure none
  return .branch guard body others otherwise (start.cover (← lastSpan))

def expressionStatement : Parse Stmt := do
  let start := (← get).here
  let value ← expression
  let _ ← accept .semicolon
  return .expr value (start.cover (← lastSpan))

def statement : Parse Stmt :=
  fix (fun again (_ : Unit) => do
    match (← peek?).map Token.kind with
    | some .letWord => declaration false
    | some .constWord => declaration true
    | some .fnWord => functionDeclaration (again ())
    | some .ifWord => conditional (again ())
    | _ => expressionStatement) ()

def program : Parse Program := sequenceUntil (fun _ => false) statement

end Parse

/-- The program that a sequence of tokens spells out. Any tokens may be given, also such as no text
has; what follows the first end marker is not looked at. -/
def parse (tokens : List Token) : Except (Located Fault) Program :=
  (Parse.program.run (.ofTokens tokens)).map (·.1)

end Syntax

end Scriptlet
