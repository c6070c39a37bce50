import Scriptlet.Syntax.Basic

/-!
# Shapes of syntax trees

The shape of a tree is the tree without its places: all its spans are the same empty one. Two trees
of one shape differ in their spans only.
-/
namespace Scriptlet

/-- The span of nodes that stand nowhere. -/
def Span.unplaced : Span := .empty 0

mutual

def Expr.shape : Expr → Expr
  | .assign target value _ => .assign target.shape value.shape .unplaced
  | .object properties _ => .object (propertyShapes properties) .unplaced
  | .binary op left right _ => .binary op left.shape right.shape .unplaced
  | .not operand _ => .not operand.shape .unplaced
  | .call callee args _ => .call callee.shape (exprShapes args) .unplaced
  | .member object property _ => .member object.shape property .unplaced
  | .name name _ => .name name .unplaced
  | .number value _ => .number value .unplaced
  | .text value _ => .text value .unplaced

def Property.shape : Property → Property
  | .mk key value _ => .mk key value.shape .unplaced

def exprShapes : List Expr → List Expr
  | [] => []
  | e :: rest => e.shape :: exprShapes rest

def propertyShapes : List Property → List Property
  | [] => []
  | property :: rest => property.shape :: propertyShapes rest

end

mutual

def Stmt.shape : Stmt → Stmt
  | .declare name constant value _ => .declare name constant (value.map Expr.shape) .unplaced
  | .function name params body _ => .function name params (stmtShapes body) .unplaced
  | .branch condition body alternatives none _ =>
    .branch condition.shape (stmtShapes body) (alternativeShapes alternatives) none .unplaced
  | .branch condition body alternatives (some block) _ =>
    .branch condition.shape (stmtShapes body) (alternativeShapes alternatives)
      (some (stmtShapes block)) .unplaced
  | .expr value _ => .expr value.shape .unplaced

def Alternative.shape : Alternative → Alternative
  | .mk condition body => .mk condition.shape (stmtShapes body)

def stmtShapes : List Stmt → List Stmt
  | [] => []
  | statement :: rest => statement.shape :: stmtShapes rest

def alternativeShapes : List Alternative → List Alternative
  | [] => []
  | alternative :: rest => alternative.shape :: alternativeShapes rest

end

/-- A program without the places of its nodes. -/
def Program.shape (program : Program) : Program := stmtShapes program

theorem shape_branch (condition : Expr) (body : List Stmt) (alternatives : List Alternative)
    (otherwise : Option (List Stmt)) (span : Span) :
    (Stmt.branch condition body alternatives otherwise span).shape =
      .branch condition.shape (stmtShapes body) (alternativeShapes alternatives)
        (otherwise.map stmtShapes) .unplaced := by
  cases otherwise <;> rfl

end Scriptlet
