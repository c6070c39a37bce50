import Scriptlet.Diagnostic.Basic

/-!
# Tokens

A token is a lexeme with the class that it belongs to and the characters that it was read from. Text
literals keep their quotes. The end of the input is a token of its own.
-/
namespace Scriptlet

namespace Token

inductive Kind where
  | openParen | closeParen | openBrace | closeBrace | semicolon | colon | comma | period
  | arithmetic | comparison | logical | negation | assign
  | number | text | name
  | letWord | constWord | fnWord | ifWord | elseIfWord | elseWord
  | endOfInput
  deriving DecidableEq, Repr

namespace Kind

/-- How a class of tokens is called in messages. -/
def label : Kind → String
  | openParen => "'('"
  | closeParen => "')'"
  | openBrace => "'\x7b'"
  | closeBrace => "'\x7d'"
  | semicolon => "';'"
  | colon => "':'"
  | comma => "','"
  | period => "'.'"
  | arithmetic => "binary operator"
  | comparison => "comparison operator"
  | logical => "logical operator"
  | negation => "unary operator"
  | assign => "'='"
  | number => "number"
  | text => "string"
  | name => "identifier"
  | letWord => "'let'"
  | constWord => "'const'"
  | fnWord => "'fn'"
  | ifWord => "'if'"
  | elseIfWord => "'elseif'"
  | elseWord => "'else'"
  | endOfInput => "end of input"

/-- The words that are not names, each with its class. -/
def reserved : List (String × Kind) :=
  [("let", letWord), ("const", constWord), ("fn", fnWord), ("if", ifWord),
   ("elseif", elseIfWord), ("else", elseWord)]

/-- The class of a word: a reserved word has its own, any other word is a name. -/
def ofWord (word : String) : Kind := (reserved.lookup word).getD name

end Kind

end Token

structure Token where
  kind : Token.Kind
  text : String
  span : Span
  deriving DecidableEq, Repr

namespace Token

/-- The token that stands behind the last character of a text. -/
def endMarker (offset : Nat) : Token := ⟨.endOfInput, "EOF", .empty offset⟩

/-- Why no token begins at some character. -/
inductive Fault where
  /-- The character begins no lexeme. -/
  | unrecognized (c : Char)
  /-- The first half of a logical operator without its second half. -/
  | halfOperator (c : Char)
  /-- A quote that is not closed. -/
  | unterminated (quote : Char)
  deriving DecidableEq, Repr

namespace Fault

def message : Fault → String
  | unrecognized c | halfOperator c => "Unrecognized character: '" ++ c.toString ++ "'"
  | unterminated _ => "Unterminated string"

def help : Fault → Option String
  | unrecognized _ => none
  | halfOperator c =>
    some ("Did you mean the logical operator '" ++ c.toString ++ c.toString ++ "'?")
  | unterminated quote =>
    some ("Close the string literal with a matching " ++ quote.toString ++ ".")

def diagnostic (fault : Located Fault) : Diagnostic :=
  ⟨.lexical, fault.span, fault.cause.message, fault.cause.help⟩

end Fault

end Token

end Scriptlet
