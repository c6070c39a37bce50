import Scriptlet.Span
import Scriptlet.Number.Basic

/-!
# Syntax trees

A program is a list of statements. Expressions contain no statements, so that the two are defined
one after the other. Every node but a branch of a conditional knows the characters that it was read
from.
-/
namespace Scriptlet

/-- Operators on two numbers. -/
inductive Arithmetic where
  | add | subtract | multiply | divide | remainder
  deriving DecidableEq, Repr

namespace Arithmetic

def symbol : Arithmetic → String
  | add => "+"
  | subtract => "-"
  | multiply => "*"
  | divide => "/"
  | remainder => "%"

def all : List Arithmetic := [add, subtract, multiply, divide, remainder]

end Arithmetic

inductive Comparison where
  | equal | notEqual | less | greater | lessEqual | greaterEqual
  deriving DecidableEq, Repr

namespace Comparison

def symbol : Comparison → String
  | equal => "=="
  | notEqual => "!="
  | less => "<"
  | greater => ">"
  | lessEqual => "<="
  | greaterEqual => ">="

def all : List Comparison := [equal, notEqual, less, greater, lessEqual, greaterEqual]

end Comparison

/-- Operators on two truth values. -/
inductive Connective where
  | and | or
  deriving DecidableEq, Repr

namespace Connective

def symbol : Connective → String
  | and => "&&"
  | or => "||"

def all : List Connective := [and, or]

end Connective

/-- An operator between two operands. -/
inductive Operator where
  | connective (op : Connective)
  | comparison (op : Comparison)
  | arithmetic (op : Arithmetic)
  deriving DecidableEq, Repr

namespace Operator

def symbol : Operator → String
  | connective op => op.symbol
  | comparison op => op.symbol
  | arithmetic op => op.symbol

end Operator

mutual

inductive Expr where
  /-- That the target is a name is checked when the assignment is carried out. -/
  | assign (target value : Expr) (span : Span)
  | object (properties : List Property) (span : Span)
  | binary (op : Operator) (left right : Expr) (span : Span)
  | not (operand : Expr) (span : Span)
  | call (callee : Expr) (args : List Expr) (span : Span)
  | member (object : Expr) (property : String) (span : Span)
  | name (name : String) (span : Span)
  | number (value : Number) (span : Span)
  | text (value : String) (span : Span)

/-- One entry of an object literal. -/
inductive Property where
  | mk (key : String) (value : Expr) (span : Span)

end

deriving instance Repr, Inhabited for Expr, Property

namespace Property

def key : Property → String
  | mk key _ _ => key

def value : Property → Expr
  | mk _ value _ => value

def span : Property → Span
  | mk _ _ span => span

end Property

namespace Expr

def span : Expr → Span
  | assign _ _ span => span
  | object _ span => span
  | binary _ _ _ span => span
  | not _ span => span
  | call _ _ span => span
  | member _ _ span => span
  | name _ span => span
  | number _ span => span
  | text _ span => span

end Expr

mutual

inductive Stmt where
  | declare (name : String) (constant : Bool) (value : Option Expr) (span : Span)
  | function (name : String) (params : List String) (body : List Stmt) (span : Span)
  | branch (condition : Expr) (body : List Stmt) (alternatives : List Alternative)
      (otherwise : Option (List Stmt)) (span : Span)
  | expr (value : Expr) (span : Span)

/-- A further condition of a conditional, with the block that it guards. -/
inductive Alternative where
  | mk (condition : Expr) (body : List Stmt)

end

deriving instance Repr, Inhabited for Stmt, Alternative

namespace Alternative

def condition : Alternative → Expr
  | mk condition _ => condition

def body : Alternative → List Stmt
  | mk _ body => body

end Alternative

namespace Stmt

def span : Stmt → Span
  | declare _ _ _ span => span
  | function _ _ _ span => span
  | branch _ _ _ _ span => span
  | expr _ span => span

end Stmt

abbrev Program := List Stmt

end Scriptlet
