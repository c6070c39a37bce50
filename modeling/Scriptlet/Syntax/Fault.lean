import Scriptlet.Token.Basic

/-!
# Faults of the grammar

Why a sequence of tokens is no program. Each cause has one wording and, for most causes, one piece
of advice.
-/
namespace Scriptlet

/-- The parts of a conditional that have a condition. -/
inductive Clause where
  | ifClause | elseIfClause
  deriving DecidableEq, Repr

namespace Clause

def word : Clause → String
  | ifClause => "if"
  | elseIfClause => "elseif"

end Clause

/-- What a block is the body of. -/
inductive BlockRole where
  | function | clause (clause : Clause) | otherwise
  deriving DecidableEq, Repr

namespace BlockRole

def label : BlockRole → String
  | function => "function body"
  | clause c => c.word ++ " body"
  | otherwise => "else body"

end BlockRole

/-- A place of the grammar where only one kind of token can stand. -/
inductive Expected where
  | declaredName (keyword : String)
  | initializer (name : String)
  | functionName
  | parameters
  | parametersEnd
  | condition (clause : Clause)
  | conditionEnd (clause : Clause)
  | block (role : BlockRole)
  | blockEnd (role : BlockRole)
  | propertyName
  | propertyValue (key : String)
  | objectEnd
  | argumentsEnd
  | memberName
  | groupEnd
  deriving DecidableEq, Repr

namespace Expected

def kind : Expected → Token.Kind
  | declaredName _ | functionName | propertyName | memberName => .name
  | initializer _ => .assign
  | parameters | condition _ => .openParen
  | parametersEnd | conditionEnd _ | argumentsEnd | groupEnd => .closeParen
  | block _ => .openBrace
  | blockEnd _ | objectEnd => .closeBrace
  | propertyValue _ => .colon

def message : Expected → String
  | declaredName keyword => "Expected identifier after '" ++ keyword ++ "'"
  | initializer _ => "Expected '=' after identifier in variable declaration"
  | functionName => "Expected function name after 'fn'"
  | parameters => "Expected '(' after function name"
  | parametersEnd => "Expected ')' after parameters"
  | condition clause => "Expected '(' after '" ++ clause.word ++ "'"
  | conditionEnd clause => "Expected ')' after " ++ clause.word ++ " condition"
  | block role => "Expected '\x7b' before " ++ role.label
  | blockEnd role => "Expected '\x7d' after " ++ role.label
  | propertyName => "Expected property name in object literal"
  | propertyValue _ => "Expected ':' after property name"
  | objectEnd => "Expected '\x7d' after object properties"
  | argumentsEnd => "Expected ')' after arguments"
  | memberName => "Expected property name after '.'"
  | groupEnd => "Expected ')' after expression"

def help : Expected → String
  | declaredName _ => "Variable declarations name a variable: let name = value"
  | initializer name =>
    "Either initialize the variable (let " ++ name ++ " = value) or end the declaration with ';' " ++
      "(let " ++ name ++ ";)"
  | functionName => "Function declarations look like: fn name(a, b) \x7b a + b \x7d"
  | parameters =>
    "Parameters are listed in parentheses, even when there are none: fn name() \x7b ... \x7d"
  | parametersEnd => "Separate parameters with ',' and close the list with ')'."
  | condition clause =>
    "Conditions are wrapped in parentheses: " ++ clause.word ++ " (condition) \x7b ... \x7d"
  | conditionEnd _ | groupEnd =>
    "Every opening parenthesis '(' must have a matching closing parenthesis ')'."
  | block _ => "Blocks are delimited by curly braces: \x7b ... \x7d"
  | blockEnd _ => "Blocks must be closed with '\x7d' after the opening '\x7b'."
  | propertyName =>
    "Object keys are identifiers and a trailing ',' is not allowed: \x7b key: value \x7d"
  | propertyValue key =>
    "Object properties pair a key with a value: \x7b " ++ key ++ ": value \x7d"
  | objectEnd => "Separate properties with ',' and close the object with '\x7d'."
  | argumentsEnd =>
    "Function calls must be closed with ')' after the arguments. Example: add(1, 2)"
  | memberName => "Member access requires an identifier: object.property"

end Expected

namespace Syntax

inductive Fault where
  /-- Another token, or none, where the grammar leaves no choice. -/
  | missing (expected : Expected) (found : Option String)
  | constantWithoutValue (name : String)
  | parameterNotName (parameter : String)
  | emptyCondition (clause : Clause)
  | emptyBlock (role : BlockRole)
  | emptyParentheses
  /-- The input ends where an expression has to begin. -/
  | unexpectedEnd
  /-- A token that begins no expression. -/
  | unexpectedToken (kind : Token.Kind) (text : String)
  /-- The input ends after an operator. -/
  | missingOperand (operator : String)
  | unknownOperator (text : String)
  | invalidNumber (text : String)
  /-- More nested constructs than tokens. No sequence of tokens has this fault. -/
  | unfinished
  deriving DecidableEq, Repr

namespace Fault

def quoted (text : String) : String := "'" ++ text ++ "'"

def message : Fault → String
  | missing expected found =>
    expected.message ++ ", found " ++ (found.map quoted).getD "end of input"
  | constantWithoutValue _ => "Must assign value to a constant variable"
  | parameterNotName parameter =>
    "Function parameters must be identifiers, found " ++ quoted parameter
  | emptyCondition clause => "Empty condition in " ++ quoted clause.word
  | emptyBlock role => "Empty " ++ role.label ++ " is not allowed"
  | emptyParentheses => "Empty parentheses are not allowed"
  | unexpectedEnd => "Unexpected end of input"
  | unexpectedToken _ text => "Unexpected token " ++ quoted text
  | missingOperand operator => "Expected expression after " ++ quoted operator
  | unknownOperator text => "Unknown operator " ++ quoted text
  | invalidNumber text => "Invalid number " ++ quoted text
  | unfinished => "Nested too deeply"

/-- Advice on a token that begins no expression. -/
def strayHelp : Token.Kind → String
  | .closeParen => "Found ')' without matching '('. Check for unbalanced parentheses."
  | .closeBrace => "Found '\x7d' without matching '\x7b'. Check for unbalanced braces."
  | .elseIfWord | .elseWord =>
    "'elseif' and 'else' may only follow the block of an if statement."
  | .letWord | .constWord | .fnWord | .ifWord =>
    "Declarations and if statements cannot be used as expressions."
  | _ => "Expected an identifier, number, string, or parenthesized expression here."

def help : Fault → Option String
  | missing expected _ => some expected.help
  | constantWithoutValue name =>
    some ("Give the constant an initial value: const " ++ name ++ " = value")
  | parameterNotName _ =>
    some "Parameters are plain names separated by commas: fn add(x, y) \x7b ... \x7d"
  | emptyCondition _ => some "A condition must contain an expression."
  | emptyBlock _ => some "A block must contain at least one statement."
  | emptyParentheses => some "Parentheses must contain an expression: (x + 1)"
  | unexpectedEnd =>
    some ("Expected an expression here. " ++
      "Check for unmatched parentheses or incomplete statements.")
  | unexpectedToken kind _ => some (strayHelp kind)
  | missingOperand _ => some "Operators require an expression on their right-hand side."
  | unknownOperator _ | invalidNumber _ | unfinished => none

def diagnostic (fault : Located Fault) : Diagnostic :=
  ⟨.parsing, fault.span, fault.cause.message, fault.cause.help⟩

end Fault

end Syntax

end Scriptlet
