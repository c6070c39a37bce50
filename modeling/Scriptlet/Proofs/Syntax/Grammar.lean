import Scriptlet.Proofs.Syntax.Shape
import Scriptlet.Proofs.Token.Lexeme
import Scriptlet.Syntax.Parser

/-!
# The grammar

Which lexemes spell which tree. `Derives phrase lexemes rest` says that the lexemes spell the phrase
where `rest` follows. What follows matters in one rule only, `Phrase.Derives.complete`: an
expression to which arguments could be added is complete when no opening parenthesis follows, so
that such a parenthesis always begins arguments and never the next statement. Trees have no places
here. The parser is not mentioned: that it reads what the grammar derives, no less and no more, is
shown in the modules that import this one.

    program    = statement*
    statement  = ('let' | 'const') name '=' expr [';'] | 'let' name ';'
               | 'fn' name '(' [param (',' param)*] ')' block
               | 'if' '(' expr ')' block ('elseif' '(' expr ')' block)* ['else' block]
               | expr [';']
    param      = name | '(' param ')'
    block      = '{' statement+ '}'
    expr       = objlevel ['=' expr]
    objlevel   = '{' [name ':' expr (',' name ':' expr)*] '}' | logical
    logical, comparison, additive, multiplicative: chains that group to the left
    unary      = '!' unary | member ('(' [expr (',' expr)*] ')')*
    member     = primary ('.' name)*
    primary    = name | number | text | '(' expr ')'
-/
namespace Scriptlet

open Syntax (Level)
open Token (BeginsWith Lexeme)

namespace Operator

/-- The level of the chains in which an operator stands. -/
def level : Operator → Level
  | connective _ => .logical
  | comparison _ => .comparison
  | arithmetic .add | arithmetic .subtract => .additive
  | arithmetic .multiply | arithmetic .divide | arithmetic .remainder => .multiplicative

def kind : Operator → Token.Kind
  | connective _ => .logical
  | comparison _ => .comparison
  | arithmetic _ => .arithmetic

/-- How an operator is spelled. -/
def lexeme (op : Operator) : Lexeme := ⟨op.kind, op.symbol⟩

end Operator

namespace Grammar

/-- What an expression is made of. -/
inductive Phrase where
  | expr (e : Expr)
  | objectLevel (e : Expr)
  | chain (level : Level) (e : Expr)
  | unary (e : Expr)
  | call (e : Expr)
  | member (e : Expr)
  | primary (e : Expr)
  /-- Expressions with commas between, or nothing. -/
  | args (es : List Expr)
  /-- Properties with commas between, or nothing. -/
  | properties (ps : List Property)

/-- The operands of the chains of a level are the chains of the next tighter level. -/
def operand : Level → Expr → Phrase
  | .logical => .chain .comparison
  | .comparison => .chain .additive
  | .additive => .chain .multiplicative
  | .multiplicative => .unary

inductive Phrase.Derives : Phrase → List Lexeme → List Lexeme → Prop
  | value {e ls rest} (of_value : Derives (.objectLevel e) ls rest) : Derives (.expr e) ls rest
  | assign {target value sign left right rest}
      (of_target : Derives (.objectLevel target) left (⟨.assign, sign⟩ :: (right ++ rest)))
      (of_value : Derives (.expr value) right rest) :
      Derives (.expr (.assign target value .unplaced)) (left ++ ⟨.assign, sign⟩ :: right) rest
  | logical {e ls rest} (of_chain : Derives (.chain .logical e) ls rest) :
      Derives (.objectLevel e) ls rest
  | object {ps opening ls closing rest}
      (of_properties : Derives (.properties ps) ls (⟨.closeBrace, closing⟩ :: rest)) :
      Derives (.objectLevel (.object ps .unplaced))
        (⟨.openBrace, opening⟩ :: (ls ++ [⟨.closeBrace, closing⟩])) rest
  | operand {level e ls rest} (of_operand : Derives (operand level e) ls rest) :
      Derives (.chain level e) ls rest
  | binary {level op a b left right rest} (at_level : op.level = level)
      (of_left : Derives (.chain level a) left (op.lexeme :: (right ++ rest)))
      (of_right : Derives (operand level b) right rest) :
      Derives (.chain level (.binary op a b .unplaced)) (left ++ op.lexeme :: right) rest
  | not {e sign ls rest} (of_operand : Derives (.unary e) ls rest) :
      Derives (.unary (.not e .unplaced)) (⟨.negation, sign⟩ :: ls) rest
  | complete {e ls rest} (of_call : Derives (.call e) ls rest) (ends : ¬ BeginsWith .openParen rest) :
      Derives (.unary e) ls rest
  | callee {e ls rest} (of_member : Derives (.member e) ls rest) : Derives (.call e) ls rest
  | call {callee args opening left right closing rest}
      (of_callee : Derives (.call callee) left
        (⟨.openParen, opening⟩ :: (right ++ ⟨.closeParen, closing⟩ :: rest)))
      (of_args : Derives (.args args) right (⟨.closeParen, closing⟩ :: rest)) :
      Derives (.call (.call callee args .unplaced))
        (left ++ ⟨.openParen, opening⟩ :: (right ++ [⟨.closeParen, closing⟩])) rest
  | root {e ls rest} (of_primary : Derives (.primary e) ls rest) : Derives (.member e) ls rest
  | member {object property period ls rest}
      (of_object : Derives (.member object) ls (⟨.period, period⟩ :: ⟨.name, property⟩ :: rest)) :
      Derives (.member (.member object property .unplaced))
        (ls ++ [⟨.period, period⟩, ⟨.name, property⟩]) rest
  | name {text rest} : Derives (.primary (.name text .unplaced)) [⟨.name, text⟩] rest
  | number {text value rest} (denotes : Number.ofNumeral? text.toList = some value) :
      Derives (.primary (.number value .unplaced)) [⟨.number, text⟩] rest
  | text {text rest} :
      Derives (.primary (.text (Syntax.Parse.unquoted text) .unplaced)) [⟨.text, text⟩] rest
  | group {e opening ls closing rest}
      (of_inner : Derives (.expr e) ls (⟨.closeParen, closing⟩ :: rest)) :
      Derives (.primary e) (⟨.openParen, opening⟩ :: (ls ++ [⟨.closeParen, closing⟩])) rest
  | noArgs {rest} : Derives (.args []) [] rest
  | lastArg {e ls rest} (of_arg : Derives (.expr e) ls rest) : Derives (.args [e]) ls rest
  | moreArgs {e next es comma left right rest}
      (of_arg : Derives (.expr e) left (⟨.comma, comma⟩ :: (right ++ rest)))
      (of_args : Derives (.args (next :: es)) right rest) :
      Derives (.args (e :: next :: es)) (left ++ ⟨.comma, comma⟩ :: right) rest
  | noProperties {rest} : Derives (.properties []) [] rest
  | lastProperty {key value colon ls rest} (of_value : Derives (.expr value) ls rest) :
      Derives (.properties [.mk key value .unplaced]) (⟨.name, key⟩ :: ⟨.colon, colon⟩ :: ls) rest
  | moreProperties {key value next ps colon comma left right rest}
      (of_value : Derives (.expr value) left (⟨.comma, comma⟩ :: (right ++ rest)))
      (of_properties : Derives (.properties (next :: ps)) right rest) :
      Derives (.properties (.mk key value .unplaced :: next :: ps))
        (⟨.name, key⟩ :: ⟨.colon, colon⟩ :: (left ++ ⟨.comma, comma⟩ :: right)) rest

/-- A primary expression that no arguments follow is an expression. -/
theorem Phrase.Derives.of_primary {e : Expr} {ls rest : List Lexeme}
    (h : Phrase.Derives (.primary e) ls rest) (ends : ¬ BeginsWith .openParen rest) :
    Phrase.Derives (.expr e) ls rest :=
  .value <| .logical <| .operand <| .operand <| .operand <| .operand <|
    .complete (.callee (.root h)) ends

/-- What a program is made of, apart from its expressions. -/
inductive Construct where
  | param (name : String)
  /-- Parameters with commas between, or nothing. -/
  | params (names : List String)
  | statement (s : Stmt)
  /-- Any number of statements, one after the other. -/
  | statements (ss : List Stmt)
  | block (ss : List Stmt)
  | alternatives (as : List Alternative)
  /-- The last block of a conditional, if it has one. -/
  | otherwise (block : Option (List Stmt))

/-- A statement may end with a semicolon. -/
inductive Terminator : List Lexeme → Prop
  | none : Terminator []
  | semicolon (text : String) : Terminator [⟨.semicolon, text⟩]

/-- The word that begins a declaration. -/
def declaring (constant : Bool) : Token.Kind := if constant then .constWord else .letWord

inductive Construct.Derives : Construct → List Lexeme → List Lexeme → Prop
  | name {text rest} : Derives (.param text) [⟨.name, text⟩] rest
  | parentheses {name opening ls closing rest}
      (of_inner : Derives (.param name) ls (⟨.closeParen, closing⟩ :: rest)) :
      Derives (.param name) (⟨.openParen, opening⟩ :: (ls ++ [⟨.closeParen, closing⟩])) rest
  | noParams {rest} : Derives (.params []) [] rest
  | lastParam {name ls rest} (of_param : Derives (.param name) ls rest) :
      Derives (.params [name]) ls rest
  | moreParams {name next names comma left right rest}
      (of_param : Derives (.param name) left (⟨.comma, comma⟩ :: (right ++ rest)))
      (of_params : Derives (.params (next :: names)) right rest) :
      Derives (.params (name :: next :: names)) (left ++ ⟨.comma, comma⟩ :: right) rest
  | declare {constant name value word sign ls ending rest}
      (of_value : Phrase.Derives (.expr value) ls (ending ++ rest)) (ends : Terminator ending) :
      Derives (.statement (.declare name constant (some value) .unplaced))
        (⟨declaring constant, word⟩ :: ⟨.name, name⟩ :: ⟨.assign, sign⟩ :: (ls ++ ending)) rest
  | declareOnly {name word semicolon rest} :
      Derives (.statement (.declare name false none .unplaced))
        [⟨.letWord, word⟩, ⟨.name, name⟩, ⟨.semicolon, semicolon⟩] rest
  | function {name params body word opening left closing right rest}
      (of_params : Derives (.params params) left (⟨.closeParen, closing⟩ :: (right ++ rest)))
      (of_body : Derives (.block body) right rest) :
      Derives (.statement (.function name params body .unplaced))
        (⟨.fnWord, word⟩ :: ⟨.name, name⟩ :: ⟨.openParen, opening⟩ ::
          (left ++ ⟨.closeParen, closing⟩ :: right)) rest
  | branch {condition body others last word opening guard closing first middle final rest}
      (of_condition : Phrase.Derives (.expr condition) guard
        (⟨.closeParen, closing⟩ :: (first ++ (middle ++ (final ++ rest)))))
      (of_body : Derives (.block body) first (middle ++ (final ++ rest)))
      (of_others : Derives (.alternatives others) middle (final ++ rest))
      (of_last : Derives (.otherwise last) final rest) :
      Derives (.statement (.branch condition body others last .unplaced))
        (⟨.ifWord, word⟩ :: ⟨.openParen, opening⟩ ::
          (guard ++ ⟨.closeParen, closing⟩ :: (first ++ (middle ++ final)))) rest
  | expr {value ls ending rest} (of_value : Phrase.Derives (.expr value) ls (ending ++ rest))
      (ends : Terminator ending) : Derives (.statement (.expr value .unplaced)) (ls ++ ending) rest
  | noStatements {rest} : Derives (.statements []) [] rest
  | moreStatements {s ss left right rest} (of_statement : Derives (.statement s) left (right ++ rest))
      (of_statements : Derives (.statements ss) right rest) :
      Derives (.statements (s :: ss)) (left ++ right) rest
  | block {s ss opening ls closing rest}
      (of_statements : Derives (.statements (s :: ss)) ls (⟨.closeBrace, closing⟩ :: rest)) :
      Derives (.block (s :: ss)) (⟨.openBrace, opening⟩ :: (ls ++ [⟨.closeBrace, closing⟩])) rest
  | noAlternatives {rest} : Derives (.alternatives []) [] rest
  | moreAlternatives {condition body others word opening guard closing first middle rest}
      (of_condition : Phrase.Derives (.expr condition) guard
        (⟨.closeParen, closing⟩ :: (first ++ (middle ++ rest))))
      (of_body : Derives (.block body) first (middle ++ rest))
      (of_others : Derives (.alternatives others) middle rest) :
      Derives (.alternatives (.mk condition body :: others))
        (⟨.elseIfWord, word⟩ :: ⟨.openParen, opening⟩ ::
          (guard ++ ⟨.closeParen, closing⟩ :: (first ++ middle))) rest
  | noOtherwise {rest} : Derives (.otherwise none) [] rest
  | otherwise {body word ls rest} (of_body : Derives (.block body) ls rest) :
      Derives (.otherwise (some body)) (⟨.elseWord, word⟩ :: ls) rest

/-- The lexemes spell a program, and nothing follows. -/
def DerivesProgram (program : Program) (lexemes : List Lexeme) : Prop :=
  Construct.Derives (.statements program) lexemes []

end Grammar

end Scriptlet
