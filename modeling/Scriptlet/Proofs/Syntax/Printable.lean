import Scriptlet.Proofs.Number.Literal
import Scriptlet.Proofs.Syntax.Grammar
import Scriptlet.Syntax.Printer
import Scriptlet.Text.Alphabetic

/-!
# Trees that read back

Not every tree is read back from its printed text. Names have to be words of the language, text
literals must not contain the quote that closes them, and numbers have to be such as a literal can
denote. Printing puts parentheses around operators only. So an object literal may not stand where
the grammar wants an operand, nor a call where it wants the object of a member, and no statement may
begin with a parenthesis behind one that would take it for arguments.
-/
namespace Scriptlet

/-- A word that is read as a name: it has letters only and is not reserved. -/
def IsName (word : String) : Prop :=
  word ≠ "" ∧ (∀ c ∈ word.toList, Text.isAlphabetic c = true) ∧
    word ∉ Token.Kind.reserved.map (·.1)

theorem isName_iff {word : String} :
    IsName word ↔ word ≠ "" ∧ word.toList.all Text.isAlphabetic = true ∧
      word ∉ Token.Kind.reserved.map (·.1) := by
  rw [List.all_eq_true, IsName]

instance (word : String) : Decidable (IsName word) := decidable_of_iff _ isName_iff.symm

theorem IsName.ofWord {word : String} (h : IsName word) : Token.Kind.ofWord word = .name := by
  obtain ⟨-, -, free⟩ := h
  have absent : Token.Kind.reserved.lookup word = none := by
    rw [List.lookup_eq_none_iff]
    intro entry member
    rw [bne_iff_ne]
    rintro rfl
    exact free (List.mem_map_of_mem member)
  rw [Token.Kind.ofWord, absent]
  rfl

theorem IsName.toList_ne_nil {word : String} (h : IsName word) : word.toList ≠ [] := by
  intro empty
  exact h.1 (String.toList_inj.mp empty)

namespace Expr

def isObject : Expr → Bool
  | object _ _ => true
  | _ => false

def isCall : Expr → Bool
  | call _ _ _ => true
  | _ => false

end Expr

mutual

/-- What an expression has to be like to be read back. -/
def Expr.Printable : Expr → Prop
  | .assign target value _ => target.Printable ∧ value.Printable
  | .object properties _ => propertiesPrintable properties
  | .binary _ left right _ =>
    left.Printable ∧ right.Printable ∧ left.isObject = false ∧ right.isObject = false
  | .not operand _ => operand.Printable ∧ operand.isObject = false
  | .call callee args _ => callee.Printable ∧ callee.isObject = false ∧ exprsPrintable args
  | .member object property _ =>
    object.Printable ∧ object.isObject = false ∧ object.isCall = false ∧ IsName property
  | .name name _ => IsName name
  | .number value _ => value.IsLiteral
  | .text value _ => '\'' ∉ value.toList

def Property.Printable : Property → Prop
  | .mk key value _ => IsName key ∧ value.Printable

def exprsPrintable : List Expr → Prop
  | [] => True
  | e :: rest => e.Printable ∧ exprsPrintable rest

def propertiesPrintable : List Property → Prop
  | [] => True
  | property :: rest => property.Printable ∧ propertiesPrintable rest

end

namespace Stmt

/-- Whether an opening parenthesis behind a printed statement would be read as a part of it. -/
def takesArguments : Stmt → Bool
  | expr value _ => !value.isObject
  | declare _ _ (some value) _ => !value.isObject
  | _ => false

/-- Whether a statement is an expression whose text begins with an opening parenthesis. -/
def beginsWithParen : Stmt → Bool
  | expr value _ => value.render.toList.head? = some '('
  | _ => false

end Stmt

mutual

/-- What a statement has to be like to be read back. -/
def Stmt.Printable : Stmt → Prop
  | .declare name _ (some value) _ => IsName name ∧ value.Printable
  | .declare name constant none _ => IsName name ∧ constant = false
  | .function name params body _ =>
    IsName name ∧ (∀ param ∈ params, IsName param) ∧ body ≠ [] ∧ stmtsPrintable body
  | .branch condition body alternatives none _ =>
    condition.Printable ∧ body ≠ [] ∧ stmtsPrintable body ∧ alternativesPrintable alternatives
  | .branch condition body alternatives (some block) _ =>
    condition.Printable ∧ body ≠ [] ∧ stmtsPrintable body ∧ alternativesPrintable alternatives ∧
      block ≠ [] ∧ stmtsPrintable block
  | .expr value _ => value.Printable

def Alternative.Printable : Alternative → Prop
  | .mk condition body => condition.Printable ∧ body ≠ [] ∧ stmtsPrintable body

/-- Statements that follow one another. -/
def stmtsPrintable : List Stmt → Prop
  | [] => True
  | statement :: rest =>
    statement.Printable ∧
      (∀ next ∈ rest.head?, statement.takesArguments = true → next.beginsWithParen = false) ∧
      stmtsPrintable rest

def alternativesPrintable : List Alternative → Prop
  | [] => True
  | alternative :: rest => alternative.Printable ∧ alternativesPrintable rest

end

/-- What a program has to be like to be read back from its text. -/
def Program.Printable (program : Program) : Prop := stmtsPrintable program

end Scriptlet
