import Mathlib.Logic.Relation
import Scriptlet.Syntax.Printer
import Scriptlet.Value.Basic

/-!
# Nodes and the faults they explain

The statements and expressions of a program, which of them stand inside of which, and what can go
wrong at each. A fault of evaluation is told by a span and a message; `Node.Explains` says which
nodes they fit. Every message has its own kind of node, so that the span of a fault is never that of
some expression around the one that failed.
-/
namespace Scriptlet

/-- The name that a statement declares in the scope in which it stands. -/
def Stmt.declared? : Stmt → Option String
  | .declare name _ _ _ | .function name _ _ _ => some name
  | .branch .. | .expr .. => none

/-- A statement or an expression. -/
inductive Node where
  | expr (e : Expr)
  | stmt (s : Stmt)

namespace Node

/-- `Child whole part`: `part` stands in `whole`, with no other node between. -/
inductive Child : Node → Node → Prop
  | target {target value span} : Child (.expr (.assign target value span)) (.expr target)
  | assigned {target value span} : Child (.expr (.assign target value span)) (.expr value)
  | property {properties span p} (member : p ∈ properties) :
      Child (.expr (.object properties span)) (.expr p.value)
  | left {op left right span} : Child (.expr (.binary op left right span)) (.expr left)
  | right {op left right span} : Child (.expr (.binary op left right span)) (.expr right)
  | operand {operand span} : Child (.expr (.not operand span)) (.expr operand)
  | callee {callee args span} : Child (.expr (.call callee args span)) (.expr callee)
  | arg {callee args span e} (member : e ∈ args) : Child (.expr (.call callee args span)) (.expr e)
  | object {object property span} : Child (.expr (.member object property span)) (.expr object)
  | initializer {name constant value span} :
      Child (.stmt (.declare name constant (some value) span)) (.expr value)
  | body {name params body span s} (member : s ∈ body) :
      Child (.stmt (.function name params body span)) (.stmt s)
  | condition {condition body others last span} :
      Child (.stmt (.branch condition body others last span)) (.expr condition)
  | branch {condition body others last span s} (member : s ∈ body) :
      Child (.stmt (.branch condition body others last span)) (.stmt s)
  | guard {condition body others last span a} (other : a ∈ others) :
      Child (.stmt (.branch condition body others last span)) (.expr a.condition)
  | alternative {condition body others last span a s} (other : a ∈ others) (member : s ∈ a.body) :
      Child (.stmt (.branch condition body others last span)) (.stmt s)
  | otherwise {condition body others last span s} (member : s ∈ last) :
      Child (.stmt (.branch condition body others (some last) span)) (.stmt s)
  | value {value span} : Child (.stmt (.expr value span)) (.expr value)

/-- `part` is `whole` or stands somewhere inside of it. -/
abbrev Holds : Node → Node → Prop := Relation.ReflTransGen Child

/-- The faults that evaluation of a node itself can have, by span and message. `functions` are the
functions that a call may have met. -/
inductive Explains (functions : Closure → Prop) : Node → Span → String → Prop
  | undefinedName {x span} :
      Explains functions (.expr (.name x span)) span ("Undefined variable: " ++ x)
  | undefinedTarget {x place value span} :
      Explains functions (.expr (.assign (.name x place) value span)) span
        ("Undefined variable: " ++ x)
  | constant {x place value span} :
      Explains functions (.expr (.assign (.name x place) value span)) span
        ("Cannot reassign a constant variable: " ++ x)
  | redeclared {x constant value span} :
      Explains functions (.stmt (.declare x constant value span)) span
        ("Cannot redeclare block scoped variable " ++ x)
  | redeclaredFunction {x params body span} :
      Explains functions (.stmt (.function x params body span)) span
        ("Cannot redeclare block scoped variable " ++ x)
  | repeatedParameter {x closure callee args span} (met : functions closure)
      (repeated : 2 ≤ closure.params.count x) :
      Explains functions (.expr (.call callee args span)) span
        ("Cannot redeclare block scoped variable " ++ x)
  | divisionByZero {op left right span} (divides : op = .divide ∨ op = .remainder) :
      Explains functions (.expr (.binary (.arithmetic op) left right span)) span
        "Cannot divide by 0"
  | memberNotFound {object property span} :
      Explains functions (.expr (.member object property span)) span
        ("Member not found: " ++ property)
  | memberOfNonObject {object property span} {v : Value}
      (other : ∀ id entries, v ≠ .object id entries) :
      Explains functions (.expr (.member object property span)) object.span
        ("Cannot access member of non-object: " ++ v.typeName)
  | invalidTarget {target value span} (other : ∀ x place, target ≠ .name x place) :
      Explains functions (.expr (.assign target value span)) target.span
        ("Invalid assignment target '" ++ target.render ++ "'")
  | notCallable {callee args span} {v : Value} (other : ∀ id closure, v ≠ .function id closure) :
      Explains functions (.expr (.call callee args span)) span
        ("Cannot call a value that is not a function: " ++ v.typeName)

end Node

/-- A node of a program: one of its statements, or a statement or expression inside of one. -/
def Program.HasNode (program : Program) (node : Node) : Prop :=
  ∃ s ∈ program, Node.Holds (.stmt s) node

end Scriptlet
