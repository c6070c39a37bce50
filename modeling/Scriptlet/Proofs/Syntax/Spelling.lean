import Scriptlet.Proofs.Syntax.Grammar

/-!
# The lexemes of printed trees

Every tree has a spelling: the lexemes of its printed text, in order. It stands between the text,
which is read as these lexemes, and the grammar, which derives the tree from them.
-/
namespace Scriptlet

open Token (Lexeme)

/-- Lexemes in parentheses. -/
def parenthesized (ls : List Lexeme) : List Lexeme :=
  ⟨.openParen, "("⟩ :: (ls ++ [⟨.closeParen, ")"⟩])

/-- Items with commas between. -/
def commaSpelling : List (List Lexeme) → List Lexeme
  | [] => []
  | [item] => item
  | item :: next :: rest => item ++ ⟨.comma, ","⟩ :: commaSpelling (next :: rest)

mutual

/-- The lexemes of a printed expression. -/
def Expr.spelling : Expr → List Lexeme
  | .assign target value _ =>
    parenthesized (target.spelling ++ ⟨.assign, "="⟩ :: value.spelling)
  | .object properties _ =>
    ⟨.openBrace, "\x7b"⟩ :: (commaSpelling (propertySpellings properties) ++ [⟨.closeBrace, "\x7d"⟩])
  | .binary op left right _ => parenthesized (left.spelling ++ op.lexeme :: right.spelling)
  | .not operand _ => parenthesized (⟨.negation, "!"⟩ :: operand.spelling)
  | .call callee args _ => callee.spelling ++ parenthesized (commaSpelling (exprSpellings args))
  | .member object property _ => object.spelling ++ [⟨.period, "."⟩, ⟨.name, property⟩]
  | .name name _ => [⟨.name, name⟩]
  | .number value _ => [⟨.number, value.sourceText⟩]
  | .text value _ => [⟨.text, "'" ++ value ++ "'"⟩]

def Property.spelling : Property → List Lexeme
  | .mk key value _ => ⟨.name, key⟩ :: ⟨.colon, ":"⟩ :: value.spelling

def exprSpellings : List Expr → List (List Lexeme)
  | [] => []
  | e :: rest => e.spelling :: exprSpellings rest

def propertySpellings : List Property → List (List Lexeme)
  | [] => []
  | property :: rest => property.spelling :: propertySpellings rest

end

/-- The lexemes of a parameter list. -/
def paramSpellings (params : List String) : List (List Lexeme) := params.map fun name => [⟨.name, name⟩]

/-- Lexemes in braces. -/
def braced (ls : List Lexeme) : List Lexeme := ⟨.openBrace, "\x7b"⟩ :: (ls ++ [⟨.closeBrace, "\x7d"⟩])

/-- The word that begins a declaration, as it is printed. -/
def declaringLexeme (constant : Bool) : Lexeme :=
  if constant then ⟨.constWord, "const"⟩ else ⟨.letWord, "let"⟩

mutual

/-- The lexemes of a printed statement. -/
def Stmt.spelling : Stmt → List Lexeme
  | .declare name constant (some value) _ =>
    declaringLexeme constant :: ⟨.name, name⟩ :: ⟨.assign, "="⟩ :: value.spelling
  | .declare name constant none _ =>
    [declaringLexeme constant, ⟨.name, name⟩, ⟨.semicolon, ";"⟩]
  | .function name params body _ =>
    ⟨.fnWord, "fn"⟩ :: ⟨.name, name⟩ ::
      (parenthesized (commaSpelling (paramSpellings params)) ++ braced (stmtsSpelling body))
  | .branch condition body alternatives none _ =>
    ⟨.ifWord, "if"⟩ :: (parenthesized condition.spelling ++ (braced (stmtsSpelling body) ++
      alternativesSpelling alternatives))
  | .branch condition body alternatives (some block) _ =>
    ⟨.ifWord, "if"⟩ :: (parenthesized condition.spelling ++ (braced (stmtsSpelling body) ++
      (alternativesSpelling alternatives ++ ⟨.elseWord, "else"⟩ :: braced (stmtsSpelling block))))
  | .expr value _ => value.spelling

def Alternative.spelling : Alternative → List Lexeme
  | .mk condition body =>
    ⟨.elseIfWord, "elseif"⟩ :: (parenthesized condition.spelling ++ braced (stmtsSpelling body))

def stmtsSpelling : List Stmt → List Lexeme
  | [] => []
  | statement :: rest => statement.spelling ++ stmtsSpelling rest

def alternativesSpelling : List Alternative → List Lexeme
  | [] => []
  | alternative :: rest => alternative.spelling ++ alternativesSpelling rest

end

/-- The lexemes of a printed program. -/
def Program.spelling (program : Program) : List Lexeme := stmtsSpelling program

end Scriptlet
