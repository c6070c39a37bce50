import Scriptlet.Proofs.Syntax.Correctness
import Scriptlet.Proofs.Syntax.Printable
import Scriptlet.Proofs.Syntax.Usable.Tokens
import Scriptlet.Proofs.Token.Joined

/-!
# The words of a program

All names of a tree that the grammar derives from classified lexemes are words, and digits denote
its numbers (`Node.Worded`). The grammar derives trees without places; a node of the tree that was
read has a node of the same words there (`Node.Holds.shape`).
-/
namespace Scriptlet

open Token (Lexeme Kind lexemes beforeEnd)

theorem Token.Kind.Admits.isName {word : String} (admitted : Kind.Admits .name word.toList) :
    IsName word := by
  generalize spelled : word.toList = letters at admitted
  cases admitted with
  | mark listed => simp [marks] at listed
  | operator listed => simp [operators] at listed
  | keyword listed => simp [reserved] at listed
  | name full all free =>
    have same : String.ofList letters = word := by rw [← spelled, String.ofList_toList]
    refine ⟨?_, spelled ▸ all, ?_⟩
    · rintro rfl
      exact full spelled.symm
    · intro listed
      obtain ⟨⟨_, kind⟩, among, entry⟩ := List.mem_map.mp listed
      cases entry
      exact free kind (same ▸ among)

namespace Node

/-- The names that stand directly in a node are words, and a number is one that digits denote. -/
def Worded : Node → Prop
  | .expr (.object properties _) => ∀ p ∈ properties, IsName p.key
  | .expr (.member _ property _) => IsName property
  | .expr (.name name _) => IsName name
  | .expr (.number value _) => ∃ digits : List Char,
      digits ≠ [] ∧ (∀ c ∈ digits, c.isDigit = true) ∧ Number.ofNumeral? digits = some value
  | .stmt (.declare name _ _ _) => IsName name
  | .stmt (.function name params _ _) => IsName name ∧ ∀ param ∈ params, IsName param
  | _ => True

/-- A node without the places of what stands in it. -/
def shape : Node → Node
  | .expr e => .expr e.shape
  | .stmt s => .stmt s.shape

theorem mem_exprShapes {e : Expr} {es : List Expr} (member : e ∈ es) : e.shape ∈ exprShapes es := by
  induction member with
  | head => exact .head _
  | tail _ _ ih => exact .tail _ ih

theorem mem_propertyShapes {p : Property} {ps : List Property} (member : p ∈ ps) :
    p.shape ∈ propertyShapes ps := by
  induction member with
  | head => exact .head _
  | tail _ _ ih => exact .tail _ ih

theorem mem_stmtShapes {s : Stmt} {ss : List Stmt} (member : s ∈ ss) : s.shape ∈ stmtShapes ss := by
  induction member with
  | head => exact .head _
  | tail _ _ ih => exact .tail _ ih

theorem mem_alternativeShapes {a : Alternative} {as : List Alternative} (member : a ∈ as) :
    a.shape ∈ alternativeShapes as := by
  induction member with
  | head => exact .head _
  | tail _ _ ih => exact .tail _ ih

theorem Child.shape {node part : Node} (child : node.Child part) : node.shape.Child part.shape := by
  cases child with
  | target => exact .target
  | assigned => exact .assigned
  | @property _ _ p member =>
    cases p
    exact .property (mem_propertyShapes member)
  | left => exact .left
  | right => exact .right
  | operand => exact .operand
  | callee => exact .callee
  | arg member => exact .arg (mem_exprShapes member)
  | object => exact .object
  | initializer => exact .initializer
  | body member => exact .body (mem_stmtShapes member)
  | @condition _ _ _ last =>
    cases last <;> exact .condition
  | @branch _ _ _ last _ _ member =>
    cases last <;> exact .branch (mem_stmtShapes member)
  | @guard _ _ _ last _ a other =>
    cases a
    cases last <;> exact .guard (mem_alternativeShapes other)
  | @alternative _ _ _ last _ a _ other member =>
    cases a
    cases last <;> exact .alternative (mem_alternativeShapes other) (mem_stmtShapes member)
  | otherwise member => exact .otherwise (mem_stmtShapes member)
  | value => exact .value

theorem Holds.shape {node part : Node} (holds : node.Holds part) : node.shape.Holds part.shape :=
  holds.lift Node.shape fun _ _ => Child.shape

/-- The words of a node are those of its shape. -/
theorem Worded.of_shape {node : Node} (worded : node.shape.Worded) : node.Worded := by
  cases node with
  | expr e =>
    cases e with
    | object properties =>
      intro p member
      have key := worded p.shape (mem_propertyShapes member)
      cases p
      exact key
    | _ => exact worded
  | stmt s =>
    cases s with
    | branch => trivial
    | _ => exact worded

end Node

/-! The words of expressions and statements with all that stands inside of them. -/

abbrev Expr.Worded (e : Expr) : Prop := (Node.expr e).Throughout Node.Worded

abbrev Property.Worded (p : Property) : Prop := IsName p.key ∧ p.value.Worded

abbrev Stmt.Worded (s : Stmt) : Prop := (Node.stmt s).Throughout Node.Worded

abbrev Alternative.Worded (a : Alternative) : Prop := a.condition.Worded ∧ ∀ s ∈ a.body, s.Worded

namespace Grammar

open Node (throughout_of)

/-- Every lexeme has a text of its class. -/
def Classified (ls : List Lexeme) : Prop := ∀ l ∈ ls, l.kind.Admits l.text.toList

theorem classified_cons {l : Lexeme} {ls : List Lexeme} :
    Classified (l :: ls) ↔ l.kind.Admits l.text.toList ∧ Classified ls := List.forall_mem_cons

theorem classified_append {ls ms : List Lexeme} :
    Classified (ls ++ ms) ↔ Classified ls ∧ Classified ms := List.forall_mem_append

def Phrase.Worded : Phrase → Prop
  | .expr e | .objectLevel e | .chain _ e | .unary e | .call e | .member e | .primary e => e.Worded
  | .args es => ∀ e ∈ es, e.Worded
  | .properties ps => ∀ p ∈ ps, p.Worded

theorem worded_operand {level : Syntax.Level} {e : Expr} :
    (operand level e).Worded ↔ e.Worded := by
  cases level <;> rfl

theorem Phrase.Derives.worded {phrase : Phrase} {ls rest : List Lexeme}
    (derives : phrase.Derives ls rest) (classified : Classified ls) : phrase.Worded := by
  induction derives with
  | value _ ih | logical _ ih | complete _ _ ih | callee _ ih | root _ ih => exact ih classified
  | operand _ ih => exact worded_operand.mp (ih classified)
  | assign _ _ first second =>
    rw [classified_append, classified_cons] at classified
    refine throughout_of trivial ?_
    rintro _ (_ | _)
    · exact first classified.1
    · exact second classified.2.2
  | object _ ih =>
    rw [classified_cons, classified_append] at classified
    have all := ih classified.2.1
    refine throughout_of (fun p member => (all p member).1) ?_
    intro part child
    cases child with
    | property member => exact (all _ member).2
  | binary _ _ _ first second =>
    rw [classified_append, classified_cons] at classified
    refine throughout_of trivial ?_
    rintro _ (_ | _)
    · exact first classified.1
    · exact worded_operand.mp (second classified.2.2)
  | not _ ih =>
    rw [classified_cons] at classified
    refine throughout_of trivial ?_
    rintro _ ⟨⟩
    exact ih classified.2
  | call _ _ first second =>
    rw [classified_append, classified_cons, classified_append] at classified
    refine throughout_of trivial ?_
    intro part child
    cases child with
    | callee => exact first classified.1
    | arg member => exact second classified.2.2.1 _ member
  | member _ ih =>
    rw [classified_append, classified_cons, classified_cons] at classified
    refine throughout_of classified.2.2.1.isName ?_
    rintro _ ⟨⟩
    exact ih classified.1
  | name =>
    rw [classified_cons] at classified
    exact throughout_of classified.1.isName nofun
  | number denotes =>
    rw [classified_cons] at classified
    obtain ⟨full, all⟩ := Kind.number_text classified.1
    exact throughout_of ⟨_, full, all, denotes⟩ nofun
  | text => exact throughout_of trivial nofun
  | group _ ih =>
    rw [classified_cons, classified_append] at classified
    exact ih classified.2.1
  | noArgs | noProperties => exact nofun
  | lastArg _ ih => exact List.forall_mem_singleton.mpr (ih classified)
  | moreArgs _ _ first second =>
    rw [classified_append, classified_cons] at classified
    exact List.forall_mem_cons.mpr ⟨first classified.1, second classified.2.2⟩
  | lastProperty _ ih =>
    rw [classified_cons, classified_cons] at classified
    exact List.forall_mem_singleton.mpr ⟨classified.1.isName, ih classified.2.2⟩
  | moreProperties _ _ first second =>
    rw [classified_cons, classified_cons, classified_append, classified_cons] at classified
    obtain ⟨key, -, value, -, others⟩ := classified
    exact List.forall_mem_cons.mpr ⟨⟨key.isName, first value⟩, second others⟩

def Construct.Worded : Construct → Prop
  | .param name => IsName name
  | .params names => ∀ name ∈ names, IsName name
  | .statement s => s.Worded
  | .statements ss | .block ss => ∀ s ∈ ss, s.Worded
  | .alternatives as => ∀ a ∈ as, a.Worded
  | .otherwise last => ∀ block ∈ last, ∀ s ∈ block, s.Worded

theorem Construct.Derives.worded {construct : Construct} {ls rest : List Lexeme}
    (derives : construct.Derives ls rest) (classified : Classified ls) : construct.Worded := by
  induction derives with
  | name =>
    rw [classified_cons] at classified
    exact classified.1.isName
  | parentheses _ ih =>
    rw [classified_cons, classified_append] at classified
    exact ih classified.2.1
  | noParams | noStatements | noAlternatives | noOtherwise => exact nofun
  | lastParam _ ih => exact List.forall_mem_singleton.mpr (ih classified)
  | moreParams _ _ first second =>
    rw [classified_append, classified_cons] at classified
    exact List.forall_mem_cons.mpr ⟨first classified.1, second classified.2.2⟩
  | declare of_value _ =>
    rw [classified_cons, classified_cons, classified_cons, classified_append] at classified
    obtain ⟨-, name, -, value, -⟩ := classified
    refine throughout_of name.isName ?_
    rintro _ ⟨⟩
    exact of_value.worded value
  | declareOnly =>
    rw [classified_cons, classified_cons] at classified
    exact throughout_of classified.2.1.isName nofun
  | function _ _ params body =>
    rw [classified_cons, classified_cons, classified_cons, classified_append,
      classified_cons] at classified
    obtain ⟨-, name, -, listed, -, block⟩ := classified
    refine throughout_of ⟨name.isName, params listed⟩ ?_
    intro part child
    cases child with
    | body member => exact body block _ member
  | branch of_condition _ _ _ body others last =>
    rw [classified_cons, classified_cons, classified_append, classified_cons, classified_append,
      classified_append] at classified
    obtain ⟨-, -, guard, -, first, middle, final⟩ := classified
    refine throughout_of trivial ?_
    intro part child
    cases child with
    | condition => exact of_condition.worded guard
    | branch member => exact body first _ member
    | guard other => exact (others middle _ other).1
    | alternative other member => exact (others middle _ other).2 _ member
    | otherwise member => exact last final _ rfl _ member
  | expr of_value _ =>
    rw [classified_append] at classified
    refine throughout_of trivial ?_
    rintro _ ⟨⟩
    exact of_value.worded classified.1
  | moreStatements _ _ first second =>
    rw [classified_append] at classified
    exact List.forall_mem_cons.mpr ⟨first classified.1, second classified.2⟩
  | block _ ih =>
    rw [classified_cons, classified_append] at classified
    exact ih classified.2.1
  | moreAlternatives of_condition _ _ body others =>
    rw [classified_cons, classified_cons, classified_append, classified_cons,
      classified_append] at classified
    obtain ⟨-, -, guard, -, first, middle⟩ := classified
    exact List.forall_mem_cons.mpr ⟨⟨of_condition.worded guard, body first⟩, others middle⟩
  | otherwise _ ih =>
    rw [classified_cons] at classified
    rintro _ ⟨⟩
    exact ih classified.2

end Grammar

/-- The names of a program that is read from a text are words, and digits denote its numbers. -/
theorem worded_of_parse {source : String} {tokens : List Token} {program : Program}
    (scanned : Token.scan source = .ok tokens) (parsed : Syntax.parse tokens = .ok program) :
    ∀ s ∈ program, s.Worded := by
  obtain ⟨front, rfl, splits⟩ := Token.scan_iff_tokenizes.mp scanned
  have derives := Syntax.derives_of_parse parsed
  rw [splits.beforeEnd_eq _ rfl] at derives
  have classified : Grammar.Classified (lexemes front) := by
    intro l member
    obtain ⟨token, among, rfl⟩ := List.mem_map.mp member
    exact splits.classified token among
  intro s member node holds
  have worded : s.shape.Worded := derives.worded classified s.shape (Node.mem_stmtShapes member)
  exact Node.Worded.of_shape (worded node.shape holds.shape)

end Scriptlet
