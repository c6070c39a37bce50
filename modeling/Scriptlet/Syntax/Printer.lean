import Scriptlet.Syntax.Basic
import Scriptlet.Number.Notation

/-!
# Printed syntax trees

The text of a tree shows its shape: every operator has parentheses around it, whatever the
precedences, and spans leave no trace. Statements of a program stand on lines of their own, those
of a block on one line.
-/
namespace Scriptlet

mutual

def Expr.render : Expr → String
  | .assign target value _ => "(" ++ target.render ++ " = " ++ value.render ++ ")"
  | .object [] _ => "\x7b\x7d"
  | .object (first :: rest) _ =>
    "\x7b " ++ ", ".intercalate (first.render :: renderProperties rest) ++ " \x7d"
  | .binary op left right _ =>
    "(" ++ left.render ++ " " ++ op.symbol ++ " " ++ right.render ++ ")"
  | .not operand _ => "(!" ++ operand.render ++ ")"
  | .call callee args _ => callee.render ++ "(" ++ ", ".intercalate (renderArgs args) ++ ")"
  | .member object property _ => object.render ++ "." ++ property
  | .name name _ => name
  | .number value _ => value.sourceText
  | .text value _ => "'" ++ value ++ "'"

def Property.render : Property → String
  | .mk key value _ => key ++ ": " ++ value.render

def renderProperties : List Property → List String
  | [] => []
  | property :: rest => property.render :: renderProperties rest

def renderArgs : List Expr → List String
  | [] => []
  | arg :: rest => arg.render :: renderArgs rest

end

mutual

def Stmt.render : Stmt → String
  | .declare name constant (some value) _ =>
    (if constant then "const " else "let ") ++ name ++ " = " ++ value.render
  | .declare name constant none _ => (if constant then "const " else "let ") ++ name ++ ";"
  | .function name params body _ =>
    "fn " ++ name ++ "(" ++ ", ".intercalate params ++ ") " ++ renderBlock body
  | .branch condition body alternatives otherwise _ =>
    "if (" ++ condition.render ++ ") " ++ renderBlock body ++ renderAlternatives alternatives ++
      match otherwise with
      | none => ""
      | some block => " else " ++ renderBlock block
  | .expr value _ => value.render

def Alternative.render : Alternative → String
  | .mk condition body => " elseif (" ++ condition.render ++ ") " ++ renderBlock body

def renderAlternatives : List Alternative → String
  | [] => ""
  | alternative :: rest => alternative.render ++ renderAlternatives rest

/-- A block with its braces. -/
def renderBlock : List Stmt → String
  | [] => "\x7b \x7d"
  | statement :: rest => "\x7b " ++ statement.render ++ renderRest rest

/-- The statements of a block after its first one, up to the closing brace. -/
def renderRest : List Stmt → String
  | [] => " \x7d"
  | statement :: rest => " " ++ statement.render ++ renderRest rest

end

def Program.render (program : Program) : String := "\n".intercalate (program.map Stmt.render)

end Scriptlet
