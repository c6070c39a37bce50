import Mathlib.Data.List.Forall2
import Scriptlet.Proofs.Syntax.Printable
import Scriptlet.Proofs.Syntax.Spelling
import Scriptlet.Proofs.Token.Scanning

/-!
# Printed text is read as its spelling

Shown along the tree, with what follows kept open: behind an expression only a delimiter is needed,
and behind a block nothing at all.
-/
namespace Scriptlet

open Token (Lexeme Scans Delimited)

/-! Pieces of printed text. -/

section
variable {text back rest : List Char} {ls ms : List Lexeme}

theorem scans_parenthesized (inner : Scans text ls (')' :: rest)) :
    Scans ('(' :: (text ++ [')'])) (parenthesized ls) rest := by
  have close : Scans [')'] [⟨.closeParen, ")"⟩] rest := Token.scans_nil.single rfl
  have inside : Scans (text ++ [')']) (ls ++ [⟨.closeParen, ")"⟩]) rest := inner.append close
  exact inside.single rfl

theorem scans_braced (inner : Scans text ls ('\x7d' :: rest)) :
    Scans ('\x7b' :: (text ++ ['\x7d'])) (braced ls) rest := by
  have close : Scans ['\x7d'] [⟨.closeBrace, "\x7d"⟩] rest := Token.scans_nil.single rfl
  have inside : Scans (text ++ ['\x7d']) (ls ++ [⟨.closeBrace, "\x7d"⟩]) rest := inner.append close
  exact inside.single rfl

/-- A sign of equality that a space follows. -/
theorem scans_assign (after : Scans back ms rest) :
    Scans ('=' :: ' ' :: back) (⟨.assign, "="⟩ :: ms) rest := by
  have sign : Scans ['='] [⟨.assign, "="⟩] (' ' :: back ++ rest) := Token.scans_single rfl
  exact sign.append after.space

/-- An operator between spaces. -/
theorem scans_operator (op : Operator) (after : Scans back ms rest) :
    Scans (op.symbol.toList ++ ' ' :: back) (op.lexeme :: ms) rest := by
  have sign : Scans op.symbol.toList [op.lexeme] (' ' :: back ++ rest) := by
    obtain x | x | x := op <;> cases x <;> exact Token.scans_lexeme rfl
  exact sign.append after.space

theorem scans_name {name : String} (h : IsName name) (ends : Delimited rest) :
    Scans name.toList [⟨.name, name⟩] rest := by
  have word := Token.scans_word h.toList_ne_nil h.2.1 ends
  rwa [String.ofList_toList, h.ofWord] at word

theorem delimited_paren : Delimited (')' :: rest) := Token.delimited_cons ⟨rfl, rfl⟩

theorem delimited_space : Delimited (' ' :: rest) := Token.delimited_cons ⟨rfl, rfl⟩

theorem delimited_comma : Delimited (',' :: rest) := Token.delimited_cons ⟨rfl, rfl⟩

theorem toList_commas (first next : String) (others : List String) :
    (", ".intercalate (first :: next :: others)).toList =
      first.toList ++ ',' :: ' ' :: (", ".intercalate (next :: others)).toList := by
  rw [String.intercalate_cons_cons]
  simp

/-- Printed items with commas between. -/
theorem scans_commas {texts : List String} {items : List (List Lexeme)}
    (each : List.Forall₂ (fun text ls => ∀ rest, Delimited rest → Scans text.toList ls rest)
      texts items) (ends : Delimited rest) :
    Scans (", ".intercalate texts).toList (commaSpelling items) rest := by
  induction each with
  | nil => exact Token.scans_nil
  | @cons text ls others items first each ih =>
    cases each with
    | nil =>
      rw [String.intercalate_singleton]
      exact first rest ends
    | cons =>
      rw [toList_commas]
      exact (first _ delimited_comma).append (ih.space.single rfl)

theorem scans_literal {value : Number} (h : value.IsLiteral) (ends : Delimited rest) :
    Scans value.sourceText.toList [⟨.number, value.sourceText⟩] rest := by
  obtain ⟨digits, text, full, all, -⟩ := h.reads
  rw [text, String.toList_ofList]
  exact Token.scans_number full all ends

theorem scans_quoted {value : String} (h : '\'' ∉ value.toList) :
    Scans ("'" ++ value ++ "'").toList [⟨.text, "'" ++ value ++ "'"⟩] rest := by
  have text : ("'" ++ value ++ "'").toList = '\'' :: (value.toList ++ ['\'']) := by simp
  have quoted : Scans _ _ rest := Token.scans_text h
  rwa [← text, String.ofList_toList] at quoted

end

/-- A text and its lexemes begin in a way that fits: never with a sign of equality, and with a
parenthesis if the lexemes do. -/
def BeginAlike (text : List Char) (ls : List Lexeme) : Prop :=
  ∃ c tail l others, text = c :: tail ∧ ls = l :: others ∧ c ≠ '=' ∧ (l.kind = .openParen → c = '(')

theorem BeginAlike.append {text : List Char} {ls : List Lexeme} (h : BeginAlike text ls)
    (back : List Char) (ms : List Lexeme) : BeginAlike (text ++ back) (ls ++ ms) := by
  obtain ⟨c, tail, l, others, rfl, rfl, fits⟩ := h
  exact ⟨c, tail ++ back, l, others ++ ms, rfl, rfl, fits⟩

/-- Only words begin with a letter. -/
theorem IsName.beginAlike {name : String} (h : IsName name) :
    BeginAlike name.toList [⟨.name, name⟩] := by
  obtain ⟨c, tail, letters⟩ := List.exists_cons_of_ne_nil h.toList_ne_nil
  refine ⟨c, tail, _, _, letters, rfl, ?_, fun paren => by cases paren⟩
  rintro rfl
  have letter := h.2.1 '=' (by simp [letters])
  exact absurd letter (by decide)

theorem Number.IsLiteral.beginAlike {value : Number} (h : value.IsLiteral) :
    BeginAlike value.sourceText.toList [⟨.number, value.sourceText⟩] := by
  obtain ⟨digits, text, full, all, -⟩ := h.reads
  obtain ⟨c, tail, rfl⟩ := List.exists_cons_of_ne_nil full
  refine ⟨c, tail, _, _, by rw [text, String.toList_ofList], rfl, ?_, fun paren => by cases paren⟩
  rintro rfl
  exact absurd (all '=' List.mem_cons_self) (by decide)

/-- How a printed expression begins. -/
theorem Expr.beginAlike : ∀ e : Expr, e.Printable → BeginAlike e.render.toList e.spelling
  | .assign target value span, _ => by
    simp only [Expr.render, String.toList_append]
    exact ⟨'(', _, _, _, rfl, rfl, by decide, fun _ => rfl⟩
  | .object [] span, _ => by
    simp only [Expr.render]
    exact ⟨'\x7b', _, _, _, rfl, rfl, by decide, fun paren => by cases paren⟩
  | .object (first :: others) span, _ => by
    simp only [Expr.render, String.toList_append]
    exact ⟨'\x7b', _, _, _, rfl, rfl, by decide, fun paren => by cases paren⟩
  | .binary op left right span, _ => by
    simp only [Expr.render, String.toList_append]
    exact ⟨'(', _, _, _, rfl, rfl, by decide, fun _ => rfl⟩
  | .not operand span, _ => by
    simp only [Expr.render, String.toList_append]
    exact ⟨'(', _, _, _, rfl, rfl, by decide, fun _ => rfl⟩
  | .call callee args span, printable => by
    simp only [Expr.render, String.toList_append, List.append_assoc]
    exact (callee.beginAlike printable.1).append _ _
  | .member owner property span, printable => by
    simp only [Expr.render, String.toList_append, List.append_assoc]
    exact (owner.beginAlike printable.1).append _ _
  | .name _ _, printable => IsName.beginAlike printable
  | .number _ _, printable => Number.IsLiteral.beginAlike printable
  | .text value span, _ => by
    simp only [Expr.render, String.toList_append]
    exact ⟨'\'', _, _, _, rfl, rfl, by decide, fun paren => by cases paren⟩

mutual

/-- The text of an expression is read as its spelling. -/
theorem Expr.scans : ∀ e : Expr, e.Printable → ∀ {rest : List Char}, Delimited rest →
    Scans e.render.toList e.spelling rest
  | .assign target value span, printable, rest, _ => by
    obtain ⟨target_printable, value_printable⟩ := printable
    have right : Scans value.render.toList value.spelling (')' :: rest) :=
      value.scans value_printable delimited_paren
    have left : Scans target.render.toList target.spelling
        (' ' :: '=' :: ' ' :: value.render.toList ++ ')' :: rest) :=
      target.scans target_printable delimited_space
    have text : (Expr.assign target value span).render.toList =
        '(' :: ((target.render.toList ++ ' ' :: '=' :: ' ' :: value.render.toList) ++ [')']) := by
      simp [Expr.render]
    rw [text]
    exact scans_parenthesized (left.append (scans_assign right).space)
  | .object [] span, _, rest, _ => by
    have inside : Scans [] [] ('\x7d' :: rest) := Token.scans_nil
    have text : (Expr.object [] span).render.toList = '\x7b' :: ([] ++ ['\x7d']) := by
      simp [Expr.render]
    rw [text]
    exact scans_braced inside
  | .object (first :: others) span, printable, rest, _ => by
    have inside : Scans (", ".intercalate (renderProperties (first :: others))).toList
        (commaSpelling (propertySpellings (first :: others))) ([' '] ++ '\x7d' :: rest) :=
      scans_commas (propertiesScan (first :: others) printable) delimited_space
    have behind : Scans [' '] [] ('\x7d' :: rest) := Token.scans_nil.space
    have padded := (inside.append behind).space
    rw [List.append_nil] at padded
    have text : (Expr.object (first :: others) span).render.toList = '\x7b' ::
        ((' ' :: ((", ".intercalate (renderProperties (first :: others))).toList ++ [' '])) ++
          ['\x7d']) := by
      simp [Expr.render, renderProperties]
    rw [text]
    exact scans_braced padded
  | .binary op left right span, printable, rest, _ => by
    obtain ⟨left_printable, right_printable, -, -⟩ := printable
    have second : Scans right.render.toList right.spelling (')' :: rest) :=
      right.scans right_printable delimited_paren
    have first : Scans left.render.toList left.spelling
        (' ' :: (op.symbol.toList ++ ' ' :: right.render.toList) ++ ')' :: rest) :=
      left.scans left_printable delimited_space
    have text : (Expr.binary op left right span).render.toList =
        '(' :: ((left.render.toList ++ ' ' :: (op.symbol.toList ++ ' ' :: right.render.toList)) ++
          [')']) := by
      simp [Expr.render]
    rw [text]
    exact scans_parenthesized (first.append (scans_operator op second).space)
  | .not operand span, printable, rest, _ => by
    have inside : Scans operand.render.toList operand.spelling (')' :: rest) :=
      operand.scans printable.1 delimited_paren
    obtain ⟨c, tail, _, _, begins, -, not_equals, -⟩ := operand.beginAlike printable.1
    have sign : Scans ['!'] [⟨.negation, "!"⟩] (operand.render.toList ++ ')' :: rest) := by
      rw [begins]
      apply Token.scans_single
      have alone : Token.step '!' (c :: tail ++ ')' :: rest) =
          if (c :: tail ++ ')' :: rest).head? = some '=' then .lexeme .comparison 1
          else .lexeme .negation 0 := rfl
      rw [alone, if_neg (by simpa using not_equals)]
    have text : (Expr.not operand span).render.toList =
        '(' :: ('!' :: operand.render.toList ++ [')']) := by
      simp [Expr.render]
    rw [text]
    exact scans_parenthesized (sign.append inside)
  | .call callee args span, printable, rest, ends => by
    obtain ⟨callee_printable, -, args_printable⟩ := printable
    have inside : Scans (", ".intercalate (renderArgs args)).toList
        (commaSpelling (exprSpellings args)) (')' :: rest) :=
      scans_commas (exprsScan args args_printable) delimited_paren
    have before : Scans callee.render.toList callee.spelling
        ('(' :: ((", ".intercalate (renderArgs args)).toList ++ [')']) ++ rest) :=
      callee.scans callee_printable (Token.delimited_cons ⟨rfl, rfl⟩)
    have text : (Expr.call callee args span).render.toList = callee.render.toList ++
        '(' :: ((", ".intercalate (renderArgs args)).toList ++ [')']) := by
      simp [Expr.render]
    rw [text]
    exact before.append (scans_parenthesized inside)
  | .member object property span, printable, rest, ends => by
    obtain ⟨object_printable, -, -, is_name⟩ := printable
    have before : Scans object.render.toList object.spelling ('.' :: property.toList ++ rest) :=
      object.scans object_printable (Token.delimited_cons ⟨rfl, rfl⟩)
    have text : (Expr.member object property span).render.toList =
        object.render.toList ++ '.' :: property.toList := by
      simp [Expr.render]
    rw [text]
    exact before.append ((scans_name is_name ends).single rfl)
  | .name _ _, printable, _, ends => scans_name printable ends
  | .number _ _, printable, _, ends => scans_literal printable ends
  | .text _ _, printable, _, _ => scans_quoted printable

theorem Property.scans : ∀ property : Property, property.Printable → ∀ {rest : List Char},
    Delimited rest → Scans property.render.toList property.spelling rest
  | .mk key value span, printable, rest, ends => by
    have behind : Scans value.render.toList value.spelling rest :=
      value.scans printable.2 ends
    have before : Scans key.toList [⟨.name, key⟩] (':' :: ' ' :: value.render.toList ++ rest) :=
      scans_name printable.1 (Token.delimited_cons ⟨rfl, rfl⟩)
    have text : (Property.mk key value span).render.toList =
        key.toList ++ ':' :: ' ' :: value.render.toList := by
      simp [Property.render]
    rw [text]
    exact before.append (behind.space.single rfl)

theorem exprsScan : ∀ es : List Expr, exprsPrintable es →
    List.Forall₂ (fun text ls => ∀ rest, Delimited rest → Scans text.toList ls rest)
      (renderArgs es) (exprSpellings es)
  | [], _ => .nil
  | e :: rest, printable =>
    .cons (fun _ ends => e.scans printable.1 ends) (exprsScan rest printable.2)

theorem propertiesScan : ∀ properties : List Property, propertiesPrintable properties →
    List.Forall₂ (fun text ls => ∀ rest, Delimited rest → Scans text.toList ls rest)
      (renderProperties properties) (propertySpellings properties)
  | [], _ => .nil
  | property :: rest, printable =>
    .cons (fun _ ends => property.scans printable.1 ends) (propertiesScan rest printable.2)

end

section
variable {back rest : List Char} {ms : List Lexeme}

/-- A reserved word that a space follows. -/
theorem scans_reserved {word : String} {kind : Token.Kind}
    (reserved : Token.Kind.ofWord word = kind ∧ word.toList ≠ [] ∧
      word.toList.all Text.isAlphabetic = true) (after : Scans back ms rest) :
    Scans (word.toList ++ ' ' :: back) (⟨kind, word⟩ :: ms) rest := by
  obtain ⟨rfl, full, all⟩ := reserved
  have letters : ∀ c ∈ word.toList, Text.isAlphabetic c = true := List.all_eq_true.mp all
  have ends : Delimited (' ' :: back ++ rest) := delimited_space
  have read := Token.scans_word full letters ends
  rw [String.ofList_toList] at read
  exact read.append after.space

theorem scans_declaring (constant : Bool) (after : Scans back ms rest) :
    Scans ((if constant then "const " else "let ").toList ++ back) (declaringLexeme constant :: ms)
      rest := by
  cases constant with
  | true =>
    have read : Scans ("const".toList ++ ' ' :: back) (⟨.constWord, "const"⟩ :: ms) rest :=
      scans_reserved (by decide) after
    simpa [declaringLexeme] using read
  | false =>
    have read : Scans ("let".toList ++ ' ' :: back) (⟨.letWord, "let"⟩ :: ms) rest :=
      scans_reserved (by decide) after
    simpa [declaringLexeme] using read

theorem delimited_renderRest (ss : List Stmt) : Delimited ((renderRest ss).toList ++ rest) := by
  cases ss with
  | nil => exact delimited_space
  | cons s others =>
    rw [renderRest, String.toList_append, String.toList_append]
    exact delimited_space

theorem scans_params {params : List String} (names : ∀ param ∈ params, IsName param) :
    Scans (", ".intercalate params).toList (commaSpelling (paramSpellings params))
      (')' :: rest) := by
  refine scans_commas ?_ delimited_paren
  rw [paramSpellings, List.forall₂_map_right_iff, List.forall₂_same]
  exact fun name member _ ends => scans_name (names name member) ends

end

mutual

/-- The text of a statement is read as its spelling. -/
theorem Stmt.scans : ∀ s : Stmt, s.Printable → ∀ {rest : List Char}, Delimited rest →
    Scans s.render.toList s.spelling rest
  | .declare name constant (some value) span, printable, rest, ends => by
    obtain ⟨is_name, value_printable⟩ := printable
    have assigned : Scans ('=' :: ' ' :: value.render.toList) (⟨.assign, "="⟩ :: value.spelling)
        rest := scans_assign (value.scans value_printable ends)
    have named : Scans name.toList [⟨.name, name⟩]
        (' ' :: '=' :: ' ' :: value.render.toList ++ rest) := scans_name is_name delimited_space
    have text : (Stmt.declare name constant (some value) span).render.toList =
        (if constant then "const " else "let ").toList ++
          (name.toList ++ ' ' :: '=' :: ' ' :: value.render.toList) := by
      simp [Stmt.render]
    rw [text]
    exact scans_declaring constant (named.append assigned.space)
  | .declare name constant none span, printable, rest, _ => by
    have named : Scans name.toList [⟨.name, name⟩] ([';'] ++ rest) :=
      scans_name printable.1 (Token.delimited_cons ⟨rfl, rfl⟩)
    have ending : Scans [';'] [⟨.semicolon, ";"⟩] rest := Token.scans_nil.single rfl
    have text : (Stmt.declare name constant none span).render.toList =
        (if constant then "const " else "let ").toList ++ (name.toList ++ [';']) := by
      simp [Stmt.render]
    rw [text]
    exact scans_declaring constant (named.append ending)
  | .function name params body span, printable, rest, _ => by
    obtain ⟨is_name, names, full, body_printable⟩ := printable
    have block : Scans (renderBlock body).toList (braced (stmtsSpelling body)) rest :=
      blockScan body full body_printable
    have list : Scans ('(' :: ((", ".intercalate params).toList ++ [')']))
        (parenthesized (commaSpelling (paramSpellings params)))
        (' ' :: (renderBlock body).toList ++ rest) := scans_parenthesized (scans_params names)
    have named : Scans name.toList [⟨.name, name⟩]
        (('(' :: ((", ".intercalate params).toList ++ [')']) ++ ' ' :: (renderBlock body).toList) ++
          rest) := scans_name is_name (Token.delimited_cons ⟨rfl, rfl⟩)
    have text : (Stmt.function name params body span).render.toList =
        "fn".toList ++ ' ' :: (name.toList ++
          ('(' :: ((", ".intercalate params).toList ++ [')']) ++ ' ' :: (renderBlock body).toList)) := by
      simp [Stmt.render]
    rw [text]
    exact scans_reserved (by decide) (named.append (list.append block.space))
  | .branch condition body alternatives none span, printable, rest, _ => by
    obtain ⟨condition_printable, full, body_printable, others_printable⟩ := printable
    have others : Scans (renderAlternatives alternatives).toList (alternativesSpelling alternatives)
        rest := alternativesScan alternatives others_printable
    have block : Scans (renderBlock body).toList (braced (stmtsSpelling body))
        ((renderAlternatives alternatives).toList ++ rest) := blockScan body full body_printable
    have guard : Scans ('(' :: (condition.render.toList ++ [')']))
        (parenthesized condition.spelling)
        (' ' :: ((renderBlock body).toList ++ (renderAlternatives alternatives).toList) ++ rest) :=
      scans_parenthesized (condition.scans condition_printable delimited_paren)
    have text : (Stmt.branch condition body alternatives none span).render.toList =
        "if".toList ++ ' ' :: ('(' :: (condition.render.toList ++ [')']) ++
          ' ' :: ((renderBlock body).toList ++ (renderAlternatives alternatives).toList)) := by
      simp [Stmt.render]
    rw [text]
    exact scans_reserved (by decide) (guard.append (block.append others).space)
  | .branch condition body alternatives (some last) span, printable, rest, _ => by
    obtain ⟨condition_printable, full, body_printable, others_printable, last_full,
      last_printable⟩ := printable
    have otherwise : Scans ("else".toList ++ ' ' :: (renderBlock last).toList)
        (⟨.elseWord, "else"⟩ :: braced (stmtsSpelling last)) rest :=
      scans_reserved (by decide) (blockScan last last_full last_printable)
    have others : Scans (renderAlternatives alternatives).toList (alternativesSpelling alternatives)
        (' ' :: ("else".toList ++ ' ' :: (renderBlock last).toList) ++ rest) :=
      alternativesScan alternatives others_printable
    have block : Scans (renderBlock body).toList (braced (stmtsSpelling body))
        (((renderAlternatives alternatives).toList ++
          ' ' :: ("else".toList ++ ' ' :: (renderBlock last).toList)) ++ rest) :=
      blockScan body full body_printable
    have guard : Scans ('(' :: (condition.render.toList ++ [')']))
        (parenthesized condition.spelling)
        (' ' :: ((renderBlock body).toList ++ ((renderAlternatives alternatives).toList ++
          ' ' :: ("else".toList ++ ' ' :: (renderBlock last).toList))) ++ rest) :=
      scans_parenthesized (condition.scans condition_printable delimited_paren)
    have text : (Stmt.branch condition body alternatives (some last) span).render.toList =
        "if".toList ++ ' ' :: ('(' :: (condition.render.toList ++ [')']) ++
          ' ' :: ((renderBlock body).toList ++ ((renderAlternatives alternatives).toList ++
            ' ' :: ("else".toList ++ ' ' :: (renderBlock last).toList)))) := by
      simp [Stmt.render]
    rw [text]
    exact scans_reserved (by decide)
      (guard.append (block.append (others.append otherwise.space)).space)
  | .expr value _, printable, _, ends => value.scans printable ends

theorem Alternative.scans : ∀ alternative : Alternative, alternative.Printable →
    ∀ {rest : List Char}, Scans alternative.render.toList alternative.spelling rest
  | .mk condition body, printable, rest => by
    obtain ⟨condition_printable, full, body_printable⟩ := printable
    have block : Scans (renderBlock body).toList (braced (stmtsSpelling body)) rest :=
      blockScan body full body_printable
    have guard : Scans ('(' :: (condition.render.toList ++ [')']))
        (parenthesized condition.spelling) (' ' :: (renderBlock body).toList ++ rest) :=
      scans_parenthesized (condition.scans condition_printable delimited_paren)
    have text : (Alternative.mk condition body).render.toList =
        ' ' :: ("elseif".toList ++ ' ' :: ('(' :: (condition.render.toList ++ [')']) ++
          ' ' :: (renderBlock body).toList)) := by
      simp [Alternative.render]
    rw [text]
    exact (scans_reserved (by decide) (guard.append block.space)).space

theorem blockScan : ∀ body : List Stmt, body ≠ [] → stmtsPrintable body →
    ∀ {rest : List Char}, Scans (renderBlock body).toList (braced (stmtsSpelling body)) rest
  | s :: others, _, printable, rest => by
    have behind : Scans (renderRest others).toList
        (stmtsSpelling others ++ [⟨.closeBrace, "\x7d"⟩]) rest := restScan others printable.2.2
    have first : Scans s.render.toList s.spelling ((renderRest others).toList ++ rest) :=
      s.scans printable.1 (delimited_renderRest others)
    have text : (renderBlock (s :: others)).toList =
        '\x7b' :: ' ' :: (s.render.toList ++ (renderRest others).toList) := by
      simp [renderBlock]
    rw [text, braced, stmtsSpelling, List.append_assoc]
    exact (first.append behind).space.single rfl

/-- The statements of a block behind its first one, with the brace that closes it. -/
theorem restScan : ∀ ss : List Stmt, stmtsPrintable ss → ∀ {rest : List Char},
    Scans (renderRest ss).toList (stmtsSpelling ss ++ [⟨.closeBrace, "\x7d"⟩]) rest
  | [], _, rest => (Token.scans_nil.single rfl : Scans ['\x7d'] _ rest).space
  | s :: others, printable, rest => by
    have behind : Scans (renderRest others).toList
        (stmtsSpelling others ++ [⟨.closeBrace, "\x7d"⟩]) rest := restScan others printable.2.2
    have first : Scans s.render.toList s.spelling ((renderRest others).toList ++ rest) :=
      s.scans printable.1 (delimited_renderRest others)
    have text : (renderRest (s :: others)).toList =
        ' ' :: (s.render.toList ++ (renderRest others).toList) := by
      simp [renderRest]
    rw [text, stmtsSpelling, List.append_assoc]
    exact (first.append behind).space

theorem alternativesScan : ∀ as : List Alternative, alternativesPrintable as →
    ∀ {rest : List Char}, Scans (renderAlternatives as).toList (alternativesSpelling as) rest
  | [], _, _ => Token.scans_nil
  | alternative :: others, printable, rest => by
    have behind : Scans (renderAlternatives others).toList (alternativesSpelling others) rest :=
      alternativesScan others printable.2
    have first : Scans alternative.render.toList alternative.spelling
        ((renderAlternatives others).toList ++ rest) := alternative.scans printable.1
    have text : (renderAlternatives (alternative :: others)).toList =
        alternative.render.toList ++ (renderAlternatives others).toList := by
      simp [renderAlternatives]
    rw [text]
    exact first.append behind

end

/-- The text of a program is read as its spelling. -/
theorem Program.scans {program : Program} (printable : Program.Printable program) :
    Scans (Program.render program).toList (Program.spelling program) [] := by
  induction program with
  | nil => exact Token.scans_nil
  | cons s others ih =>
    have behind := ih printable.2.2
    cases others with
    | nil =>
      have alone := s.scans printable.1 Token.delimited_nil
      have text : Program.render [s] = s.render := String.intercalate_singleton
      rwa [text, Program.spelling, stmtsSpelling, stmtsSpelling, List.append_nil]
    | cons next others =>
      have first : Scans s.render.toList s.spelling
          ('\n' :: (Program.render (next :: others)).toList ++ []) :=
        s.scans printable.1 (Token.delimited_cons ⟨rfl, rfl⟩)
      have line : Scans ['\n'] [] ((Program.render (next :: others)).toList ++ []) :=
        Token.scans_blank rfl
      have text : (Program.render (s :: next :: others)).toList =
          s.render.toList ++ '\n' :: (Program.render (next :: others)).toList := by
        simp [Program.render]
      rw [text]
      exact first.append (line.append behind)

end Scriptlet
