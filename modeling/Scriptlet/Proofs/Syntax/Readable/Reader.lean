import Mathlib.Data.List.Basic
import Mathlib.Order.Filter.AtTopBot.Basic
import Scriptlet.Number.Numeral
import Scriptlet.Proofs.Syntax.Shape
import Scriptlet.Proofs.Token.Scanning

/-!
# A reader of printed trees

Printed text is not source text: it shows trees that no source spells in this way, and blanks decide
where source text would need a semicolon. This reader takes printed text alone. It never goes back:
which kind of tree begins is seen from the first characters, and an expression ends where neither a
period nor an opening parenthesis follows. Each function gives a tree without places and the
characters that are left. It goes only so deep, and what counts is what it gives from some depth on
(`Gives`).
-/
namespace Scriptlet

namespace Readback

/-- The characters up to the first that is not of a class, and the others. -/
def piece (p : Char → Bool) (l : List Char) : String × List Char :=
  (String.ofList (l.takeWhile p), l.dropWhile p)

def word (l : List Char) : String × List Char := piece Text.isAlphabetic l

/-- What follows a given text. -/
def skip (text : String) (l : List Char) : Option (List Char) := l.dropPrefix? text.toList

def operators : List Operator :=
  [.connective .and, .connective .or] ++ Comparison.all.map .comparison ++
    Arithmetic.all.map .arithmetic

/-- What the sign between two expressions in parentheses makes of them. -/
def sign (symbol : String) : Option (Expr → Expr → Expr) :=
  if symbol = "=" then some fun target value => .assign target value .unplaced
  else (operators.find? (·.symbol = symbol)).map fun op left right => .binary op left right .unplaced

/-- A quoted text behind its opening quote. -/
def quoted (l : List Char) : Option (Expr × List Char) := do
  let (value, l) := piece (· ≠ '\'') l
  return (.text value .unplaced, ← skip "'" l)

/-- A name or a number. -/
def plain (l : List Char) : Option (Expr × List Char) :=
  match word l with
  | ("", l) => do
    let (digits, l) := piece Char.isDigit l
    let value ← Number.ofNumeral? digits.toList
    return (.number value .unplaced, l)
  | (name, l) => some (.name name .unplaced, l)

mutual

def expr : Nat → List Char → Option (Expr × List Char)
  | 0, _ => none
  | n + 1, l => do
    let (e, l) ← atom n l
    suffixes n e l

/-- An expression up to the members that are taken of it and to its arguments. -/
def atom : Nat → List Char → Option (Expr × List Char)
  | 0, _ => none
  | n + 1, l =>
    match l with
    | '(' :: l => group n l
    | '\x7b' :: l => object n l
    | '\'' :: l => quoted l
    | l => plain l

/-- What stands behind an opening parenthesis. -/
def group : Nat → List Char → Option (Expr × List Char)
  | 0, _ => none
  | n + 1, l =>
    match l with
    | '!' :: l => do
      let (operand, l) ← expr n l
      return (.not operand .unplaced, ← skip ")" l)
    | l => do
      let (left, l) ← expr n l
      let (symbol, l) := piece (· ≠ ' ') (← skip " " l)
      let join ← sign symbol
      let (right, l) ← expr n (← skip " " l)
      return (join left right, ← skip ")" l)

/-- What stands behind an opening brace. -/
def object : Nat → List Char → Option (Expr × List Char)
  | 0, _ => none
  | n + 1, l =>
    match l with
    | '\x7d' :: l => some (.object [] .unplaced, l)
    | l => do
      let (properties, l) ← properties n (← skip " " l)
      return (.object properties .unplaced, l)

/-- At least one property, and the closing brace. -/
def properties : Nat → List Char → Option (List Property × List Char)
  | 0, _ => none
  | n + 1, l => do
    let (key, l) := word l
    let (value, l) ← expr n (← skip ": " l)
    match l with
    | ',' :: l => do
      let (rest, l) ← properties n (← skip " " l)
      return (.mk key value .unplaced :: rest, l)
    | l => return ([.mk key value .unplaced], ← skip " \x7d" l)

/-- The members that are taken of an expression, and its arguments. -/
def suffixes : Nat → Expr → List Char → Option (Expr × List Char)
  | 0, _, _ => none
  | n + 1, e, l =>
    match l with
    | '.' :: l => suffixes n (.member e (word l).1 .unplaced) (word l).2
    | '(' :: l => do
      let (args, l) ← args n l
      suffixes n (.call e args .unplaced) l
    | l => some (e, l)

/-- Arguments and the closing parenthesis. -/
def args : Nat → List Char → Option (List Expr × List Char)
  | 0, _ => none
  | n + 1, l =>
    match l with
    | ')' :: l => some ([], l)
    | l => someArgs n l

/-- At least one argument, and the closing parenthesis. -/
def someArgs : Nat → List Char → Option (List Expr × List Char)
  | 0, _ => none
  | n + 1, l => do
    let (e, l) ← expr n l
    match l with
    | ',' :: l => do
      let (rest, l) ← someArgs n (← skip " " l)
      return (e :: rest, l)
    | l => return ([e], ← skip ")" l)

end

/-- What stands behind `let` or `const`. -/
def declaration (n : Nat) (constant : Bool) (l : List Char) : Option (Stmt × List Char) := do
  let (name, l) := word (← skip " " l)
  match l with
  | ';' :: l => return (.declare name constant none .unplaced, l)
  | l => do
    let (value, l) ← expr n (← skip " = " l)
    return (.declare name constant (some value) .unplaced, l)

def name? : Expr → Option String
  | .name name _ => some name
  | _ => none

mutual

def stmt : Nat → List Char → Option (Stmt × List Char)
  | 0, _ => none
  | n + 1, l =>
    match word l with
    | ("let", l) => declaration n false l
    | ("const", l) => declaration n true l
    | ("fn", l) => function n l
    | ("if", l) => conditional n l
    | _ => do
      let (value, l) ← expr n l
      return (.expr value .unplaced, l)

/-- What stands behind `fn`. Parameters are printed as arguments are. -/
def function : Nat → List Char → Option (Stmt × List Char)
  | 0, _ => none
  | n + 1, l => do
    let (name, l) := word (← skip " " l)
    let (args, l) ← args n (← skip "(" l)
    let params ← args.mapM name?
    let (body, l) ← block n (← skip " " l)
    return (.function name params body .unplaced, l)

/-- What stands behind `if`. -/
def conditional : Nat → List Char → Option (Stmt × List Char)
  | 0, _ => none
  | n + 1, l => do
    let (first, l) ← guarded n (← skip " (" l)
    let (others, l) ← alternatives n l
    let (last, l) ← otherwise n l
    return (.branch first.condition first.body others last .unplaced, l)

/-- A condition behind its opening parenthesis, and the block that it guards. -/
def guarded : Nat → List Char → Option (Alternative × List Char)
  | 0, _ => none
  | n + 1, l => do
    let (condition, l) ← expr n l
    let (body, l) ← block n (← skip ") " l)
    return (.mk condition body, l)

def alternatives : Nat → List Char → Option (List Alternative × List Char)
  | 0, _ => none
  | n + 1, l =>
    match skip " elseif (" l with
    | some l => do
      let (first, l) ← guarded n l
      let (rest, l) ← alternatives n l
      return (first :: rest, l)
    | none => some ([], l)

def otherwise : Nat → List Char → Option (Option (List Stmt) × List Char)
  | 0, _ => none
  | n + 1, l =>
    match skip " else " l with
    | some l => do
      let (body, l) ← block n l
      return (some body, l)
    | none => some (none, l)

def block : Nat → List Char → Option (List Stmt × List Char)
  | 0, _ => none
  | n + 1, l => do statements n (← skip "\x7b" l)

/-- The statements of a block, each behind a blank, and the closing brace. -/
def statements : Nat → List Char → Option (List Stmt × List Char)
  | 0, _ => none
  | n + 1, l =>
    match skip " \x7d" l with
    | some l => some ([], l)
    | none => do
      let (s, l) ← stmt n (← skip " " l)
      let (rest, l) ← statements n l
      return (s :: rest, l)

end

/-- Statements on lines of their own. -/
def lines : Nat → List Char → Option (List Stmt)
  | 0, _ => none
  | n + 1, l => do
    let (s, l) ← stmt n l
    match l with
    | [] => return [s]
    | l => return s :: (← lines n (← skip "\n" l))

/-- The program with a printed text. -/
def program (n : Nat) (text : String) : Option Program :=
  match text.toList with
  | [] => some []
  | l => lines n l

/-! How deep the reader goes. -/

section
variable {α : Type} {read : Nat → Option α} {a b : α}

/-- What is read from some depth on. -/
def Gives (read : Nat → Option α) (a : α) : Prop := ∀ᶠ n in Filter.atTop, read n = some a

/-- A reader that goes on one step deeper. -/
theorem gives_of_deeper (reads : ∀ᶠ n in Filter.atTop, read (n + 1) = some a) : Gives read a := by
  obtain ⟨least, reads⟩ := Filter.eventually_atTop.mp reads
  filter_upwards [Filter.eventually_ge_atTop (least + 1)] with n bound
  obtain ⟨n, rfl⟩ := Nat.exists_eq_add_of_le' (Nat.le_of_add_left_le bound)
  exact reads n (Nat.le_of_succ_le_succ bound)

/-- A reader gives one thing. -/
theorem Gives.unique (first : Gives read a) (second : Gives read b) : a = b := by
  obtain ⟨n, first, second⟩ := (first.and second).exists
  exact Option.some.inj (first.symm.trans second)

end

/-! What the reader does at a piece of text. -/

variable {l r : List Char} {text : String} {p : Char → Bool}

theorem skip_eq_some : skip text l = some r ↔ l = text.toList ++ r := by
  rw [skip, List.dropPrefix?_eq_some_iff]
  constructor
  · rintro ⟨front, rfl, same⟩
    rw [beq_iff_eq.mp same]
  · rintro rfl
    exact ⟨_, rfl, beq_self_eq_true _⟩

@[simp] theorem skip_append : skip text (text.toList ++ r) = some r := skip_eq_some.mpr rfl

theorem piece_append (all : ∀ c ∈ text.toList, p c = true) (ends : ∀ c ∈ r.head?, p c = false) :
    piece p (text.toList ++ r) = (text, r) := by
  have stops : r.dropWhile p = r := by
    cases r with
    | nil => rfl
    | cons c tail => exact List.dropWhile_cons_of_neg (by simp [ends c rfl])
  rw [piece, Token.takeWhile_append all ends, List.dropWhile_append_of_pos all, stops,
    String.ofList_toList]

theorem sign_symbol (op : Operator) :
    sign op.symbol = some fun left right => .binary op left right .unplaced := by
  obtain x | x | x := op <;> cases x <;> rfl

/-- The signs of operators contain no blanks. -/
theorem symbol_no_blank (op : Operator) : ∀ c ∈ op.symbol.toList, decide (c ≠ ' ') = true := by
  refine List.all_eq_true.mp ?_
  obtain x | x | x := op <;> cases x <;> decide

end Readback

end Scriptlet
