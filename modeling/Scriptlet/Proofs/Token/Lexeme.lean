import Scriptlet.Token.Basic

/-!
# Lexemes

What a token is apart from its place: its class and its text.
-/
namespace Scriptlet

namespace Token

structure Lexeme where
  kind : Kind
  text : String
  deriving DecidableEq, Repr

def lexeme (token : Token) : Lexeme := ⟨token.kind, token.text⟩

/-- The lexemes of tokens, in order. -/
def lexemes (tokens : List Token) : List Lexeme := tokens.map lexeme

/-- The tokens before the first end marker. -/
def beforeEnd (tokens : List Token) : List Token := tokens.takeWhile (·.kind ≠ .endOfInput)

/-- Whether the first of some lexemes is of a kind. -/
def BeginsWith (kind : Kind) (lexemes : List Lexeme) : Prop :=
  lexemes.head?.map (·.kind) = some kind

theorem lexeme_of_kind {token : Token} {kind : Kind} (h : token.kind = kind) :
    token.lexeme = ⟨kind, token.text⟩ := by
  rw [lexeme, h]

@[simp] theorem lexemes_nil : lexemes [] = [] := rfl

@[simp] theorem lexemes_cons (token : Token) (rest : List Token) :
    lexemes (token :: rest) = token.lexeme :: lexemes rest := rfl

@[simp] theorem lexemes_append (front back : List Token) :
    lexemes (front ++ back) = lexemes front ++ lexemes back := List.map_append

theorem lexemes_eq_cons {tokens : List Token} {head : Lexeme} {tail : List Lexeme}
    (h : lexemes tokens = head :: tail) :
    ∃ token rest, tokens = token :: rest ∧ token.lexeme = head ∧ lexemes rest = tail :=
  List.map_eq_cons_iff.mp h

end Token

end Scriptlet
