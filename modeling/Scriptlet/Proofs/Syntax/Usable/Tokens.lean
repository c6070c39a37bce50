import Scriptlet.Proofs.Number.Digits
import Scriptlet.Proofs.Syntax.Tiling.Placement
import Scriptlet.Proofs.Token.Splitting
import Scriptlet.Syntax.Parser

/-!
# What the texts of tokens promise

Scanner and parser have tables of their own, and only texts pass between them. What the parser needs
of a text is said here (`Token.Usable`), and holds of every token that is read from a source.
-/
namespace Scriptlet

namespace Span

/-- At a place of a source stand digits, at least one. -/
def Digits (span : Span) (source : List Char) : Prop :=
  span.slice source ≠ [] ∧ ∀ c ∈ span.slice source, c.isDigit = true

/-- At a place of a source stands a text between two quotes of one kind, which does not contain
them. -/
def Quotes (span : Span) (source : List Char) (text : String) : Prop :=
  ∃ quote, Token.isQuote quote = true ∧ quote ∉ text.toList ∧
    span.slice source = quote :: (text.toList ++ [quote])

end Span

/-- A literal of a program stands for what is at its place in the source: a number for the digits
that denote it, a text for what stands between two quotes. -/
def Node.Literal (source : List Char) : Node → Prop
  | .expr (.number value span) =>
    span.Digits source ∧ Number.ofNumeral? (span.slice source) = some value
  | .expr (.text value span) => span.Quotes source value
  | _ => True

namespace Token

open Syntax (Level)
open Syntax.Parse (unquoted)

/-- What the parser relies on: the text of an operator names one, and the text of an arithmetic one
continues the chains of just one of the two levels; the text of a literal is what stands at its
place, which are digits or a quoted text. -/
structure Usable (source : List Char) (token : Token) : Prop where
  comparison : token.kind = .comparison →
    ∃ op, Level.comparison.operator? token.text = some (.comparison op)
  logical : token.kind = .logical → ∃ op, Level.logical.operator? token.text = some (.connective op)
  arithmetic : token.kind = .arithmetic →
    (∃ op, ∀ level : Level, level = .additive ∨ level = .multiplicative →
      level.operator? token.text = some (.arithmetic op)) ∧
    Level.additive.continuedBy token = !Level.multiplicative.continuedBy token
  text : token.kind = .text →
    2 ≤ token.text.length ∧ token.span.Quotes source (unquoted token.text)
  number : token.kind = .number →
    token.text.toList = token.span.slice source ∧ token.span.Digits source

namespace Kind

variable {text : List Char}

theorem comparison_text (admitted : Admits comparison text) :
    text ∈ [['<'], ['>'], ['=', '='], ['!', '='], ['<', '='], ['>', '=']] := by
  cases admitted with
  | mark listed => simp [marks] at listed
  | operator listed =>
    simp only [operators, List.mem_cons, Prod.mk.injEq, reduceCtorEq, and_false, and_true,
      List.not_mem_nil, or_false, false_or] at listed
    rcases listed with rfl | rfl <;> simp
  | comparison listed =>
    simp only [operators, List.mem_cons, Prod.mk.injEq, List.not_mem_nil, or_false] at listed
    rcases listed with ⟨rfl, -⟩ | ⟨rfl, -⟩ | ⟨rfl, -⟩ | ⟨rfl, -⟩ <;> simp
  | keyword listed => simp [reserved] at listed

theorem logical_text (admitted : Admits logical text) : text ∈ [['&', '&'], ['|', '|']] := by
  cases admitted with
  | mark listed => simp [marks] at listed
  | operator listed => simp [operators] at listed
  | logical half => rcases half with rfl | rfl <;> simp
  | keyword listed => simp [reserved] at listed

theorem arithmetic_text (admitted : Admits arithmetic text) :
    text ∈ [['+'], ['-'], ['*'], ['/'], ['%']] := by
  cases admitted with
  | mark listed =>
    simp only [marks, List.mem_cons, Prod.mk.injEq, reduceCtorEq, and_false, and_true,
      List.not_mem_nil, or_false, false_or] at listed
    rcases listed with rfl | rfl | rfl | rfl | rfl <;> simp
  | operator listed => simp [operators] at listed
  | keyword listed => simp [reserved] at listed

theorem number_text (admitted : Admits number text) :
    text ≠ [] ∧ ∀ c ∈ text, c.isDigit = true := by
  cases admitted with
  | mark listed => simp [marks] at listed
  | operator listed => simp [operators] at listed
  | number full all => exact ⟨full, all⟩
  | keyword listed => simp [reserved] at listed

theorem quoted_text (admitted : Admits .text text) :
    ∃ quote inside, isQuote quote = true ∧ quote ∉ inside ∧ text = quote :: (inside ++ [quote]) := by
  cases admitted with
  | mark listed => simp [marks] at listed
  | operator listed => simp [operators] at listed
  | text quotes free =>
    refine ⟨_, _, ?_, free, rfl⟩
    rcases quotes with rfl | rfl <;> rfl
  | keyword listed => simp [reserved] at listed

end Kind

variable {source letters inside : List Char} {text : String} {quote : Char} {span : Span}
  {token : Token} {tokens : List Token}

/-! The tables of the parser have an entry for each of these texts. -/

theorem comparison_operator? (admitted : Kind.Admits .comparison text.toList) :
    ∃ op, Level.comparison.operator? text = some (.comparison op) := by
  have all : ∀ letters ∈ [['<'], ['>'], ['=', '='], ['!', '='], ['<', '='], ['>', '=']],
      ∃ op ∈ Comparison.all,
        Level.comparison.operator? (String.ofList letters) = some (.comparison op) := by
    decide
  obtain ⟨op, -, found⟩ := all _ (Kind.comparison_text admitted)
  rw [String.ofList_toList] at found
  exact ⟨op, found⟩

theorem logical_operator? (admitted : Kind.Admits .logical text.toList) :
    ∃ op, Level.logical.operator? text = some (.connective op) := by
  have all : ∀ letters ∈ [['&', '&'], ['|', '|']],
      ∃ op ∈ Connective.all,
        Level.logical.operator? (String.ofList letters) = some (.connective op) := by
    decide
  obtain ⟨op, -, found⟩ := all _ (Kind.logical_text admitted)
  rw [String.ofList_toList] at found
  exact ⟨op, found⟩

theorem arithmetic_operator? (admitted : Kind.Admits .arithmetic text.toList) :
    (∃ op, ∀ level : Level, level = .additive ∨ level = .multiplicative →
      level.operator? text = some (.arithmetic op)) ∧
    Level.additive.continuedBy ⟨.arithmetic, text, span⟩ =
      !Level.multiplicative.continuedBy ⟨.arithmetic, text, span⟩ := by
  have listed := Kind.arithmetic_text admitted
  have named : ∀ letters ∈ [['+'], ['-'], ['*'], ['/'], ['%']], ∃ op ∈ Arithmetic.all,
      Level.additive.operator? (String.ofList letters) = some (.arithmetic op) := by
    decide
  have apart : ∀ letters ∈ [['+'], ['-'], ['*'], ['/'], ['%']],
      Level.additive.continuedBy ⟨.arithmetic, String.ofList letters, span⟩ =
        !Level.multiplicative.continuedBy ⟨.arithmetic, String.ofList letters, span⟩ := by
    simp only [List.forall_mem_cons]
    exact ⟨rfl, rfl, rfl, rfl, rfl, List.forall_mem_nil _⟩
  obtain ⟨op, -, found⟩ := named _ listed
  have one_level := apart _ listed
  rw [String.ofList_toList] at found one_level
  refine ⟨⟨op, ?_⟩, one_level⟩
  rintro level (rfl | rfl)
  · exact found
  · exact found

/-- Without its quotes, a quoted text is what stands between them. -/
theorem quotes_of_quoted (quoted : Kind.Admits .text text.toList)
    (text_eq : text.toList = span.slice source) :
    2 ≤ text.length ∧ span.Quotes source (unquoted text) := by
  obtain ⟨quote, inside, quotes, free, spelled⟩ := Kind.quoted_text quoted
  have between : (unquoted text).toList = inside := by simp [unquoted, spelled]
  refine ⟨?_, quote, quotes, between ▸ free, ?_⟩
  · rw [← String.length_toList, spelled]
    simp
  · rw [← text_eq, spelled, between]

theorem Splits.usable (splits : Splits source 0 tokens) (member : token ∈ tokens) :
    token.Usable source := by
  have admitted := splits.classified token member
  have text_eq := splits.text_eq token member
  obtain ⟨kind, text, span⟩ := token
  dsimp only at admitted text_eq
  constructor
  · rintro rfl
    exact comparison_operator? admitted
  · rintro rfl
    exact logical_operator? admitted
  · rintro rfl
    exact arithmetic_operator? admitted
  · rintro rfl
    exact quotes_of_quoted admitted text_eq
  · rintro rfl
    refine ⟨text_eq, ?_⟩
    rw [text_eq] at admitted
    exact Kind.number_text admitted

end Token

end Scriptlet
