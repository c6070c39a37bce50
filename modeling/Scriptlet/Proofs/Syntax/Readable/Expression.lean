import Scriptlet.Proofs.Syntax.Readable.Reader
import Scriptlet.Proofs.Syntax.Readable.Words

/-!
# Printed expressions are read back

An expression is read from its text together with the members and arguments that stand behind it:
where the text of an expression ends, the reader goes on with what would extend it (`Reads`). So the
induction along the tree needs nothing of what follows but that it does not continue a word or a
number.
-/
namespace Scriptlet

open Token (Delimited delimited_cons Kind)

namespace Node

/-- A text without the quote that texts are printed with, and a finite number. -/
def Plain : Node → Prop
  | .expr (.number value _) => value.isFinite = true
  | .expr (.text value _) => '\'' ∉ value.toList
  | _ => True

/-- A node that the reader of printed text understands. -/
def Readable (node : Node) : Prop := node.Worded ∧ node.Plain

variable {P : Node → Prop} {node part : Node}

theorem Throughout.own (h : node.Throughout P) : P node := h node .refl

theorem Throughout.child (h : node.Throughout P) (child : node.Child part) : part.Throughout P :=
  fun _ holds => h _ (.head child holds)

end Node

abbrev Expr.Readable (e : Expr) : Prop := (Node.expr e).Throughout Node.Readable

/-- A number that stands in a readable expression is that of a literal. -/
theorem Number.isLiteral_of_readable {value : Number} {span : Span}
    (readable : (Node.expr (.number value span)).Readable) : value.IsLiteral :=
  ⟨readable.2, readable.1⟩

namespace Readback

variable {l r : List Char}

/-- What ends an expression: no word, number, member or call goes on behind it. -/
def Final (r : List Char) : Prop :=
  ∀ c ∈ r.head?, (Text.isAlphabetic c = false ∧ c.isDigit = false) ∧ c ≠ '.' ∧ c ≠ '('

theorem Final.delimited (final : Final r) : Delimited r := fun c head => (final c head).1

theorem final_cons {c : Char}
    (h : (Text.isAlphabetic c = false ∧ c.isDigit = false) ∧ c ≠ '.' ∧ c ≠ '(') :
    Final (c :: r) := by
  intro d head
  obtain rfl : c = d := by simpa using head
  exact h

theorem suffixes_final (e : Expr) (final : Final r) : Gives (suffixes · e r) (e, r) := by
  refine gives_of_deeper (.of_forall fun n => ?_)
  rw [suffixes]
  · rintro tail rfl
    exact (final '.' rfl).2.1 rfl
  · rintro tail rfl
    exact (final '(' rfl).2.2 rfl

theorem word_name {name : String} (is_name : IsName name) (ends : Delimited r) :
    word (name.toList ++ r) = (name, r) :=
  piece_append is_name.2.1 fun c head => (ends c head).1

theorem expr_of_atom {e : Expr} {x : Expr × List Char} (first : Gives (atom · l) (e, r))
    (rest : Gives (suffixes · e r) x) : Gives (expr · l) x := by
  refine gives_of_deeper ?_
  filter_upwards [first, rest] with n first rest
  rw [expr, first]
  exact rest

/-! How printed expressions begin. -/

/-- With a mark, a digit or a name. -/
inductive Begins : List Char → Prop
  | mark {c l} (listed : c = '(' ∨ c = '\x7b' ∨ c = '\'') : Begins (c :: l)
  | digit {c l} (digit : c.isDigit = true) : Begins (c :: l)
  | name {name l} (is_name : IsName name) (ends : Delimited l) : Begins (name.toList ++ l)

theorem begins_of_readable : ∀ e : Expr, e.Readable → ∀ {r : List Char}, Delimited r →
    Begins (e.render.toList ++ r)
  | .assign target value span, _, _, _ => by
    simp only [Expr.render, String.toList_append, List.append_assoc]
    exact .mark (.inl rfl)
  | .object [] span, _, _, _ => by
    simp only [Expr.render]
    exact .mark (.inr (.inl rfl))
  | .object (first :: rest) span, _, _, _ => by
    simp only [Expr.render, String.toList_append, List.append_assoc]
    exact .mark (.inr (.inl rfl))
  | .binary op left right span, _, _, _ => by
    simp only [Expr.render, String.toList_append, List.append_assoc]
    exact .mark (.inl rfl)
  | .not operand span, _, _, _ => by
    simp only [Expr.render, String.toList_append, List.append_assoc]
    exact .mark (.inl rfl)
  | .call callee args span, readable, _, _ => by
    simp only [Expr.render, String.toList_append, List.append_assoc]
    exact begins_of_readable callee (readable.child .callee) (delimited_cons ⟨rfl, rfl⟩)
  | .member object property span, readable, _, _ => by
    simp only [Expr.render, String.toList_append, List.append_assoc]
    exact begins_of_readable object (readable.child .object) (delimited_cons ⟨rfl, rfl⟩)
  | .name name span, readable, _, ends => .name readable.own.1 ends
  | .number value span, readable, r, _ => by
    obtain ⟨digits, text, full, all, -⟩ := (Number.isLiteral_of_readable readable.own).reads
    obtain ⟨c, tail, rfl⟩ := List.exists_cons_of_ne_nil full
    rw [Expr.render, text, String.toList_ofList]
    exact .digit (all c List.mem_cons_self)
  | .text value span, _, _, _ => by
    simp only [Expr.render, String.toList_append, List.append_assoc]
    exact .mark (.inr (.inr rfl))

theorem Begins.head (begins : Begins l) {c : Char} (listed : c = '!' ∨ c = ')' ∨ c = '\x7d') :
    l.head? ≠ some c := by
  have other : c ≠ '(' ∧ c ≠ '\x7b' ∧ c ≠ '\'' ∧ c.isDigit = false ∧
      Text.isAlphabetic c = false := by
    rcases listed with rfl | rfl | rfl <;> decide
  obtain ⟨no_paren, no_brace, no_quote, no_digit, no_letter⟩ := other
  rintro head
  cases begins with
  | mark marks =>
    cases head
    rcases marks with rfl | rfl | rfl
    · exact no_paren rfl
    · exact no_brace rfl
    · exact no_quote rfl
  | digit digit =>
    cases head
    rw [no_digit] at digit
    cases digit
  | @name name l is_name ends =>
    obtain ⟨d, tail, letters⟩ := List.exists_cons_of_ne_nil is_name.toList_ne_nil
    rw [letters] at head
    cases head
    have letter := is_name.2.1 c (by simp [letters])
    rw [no_letter] at letter
    cases letter

/-- The first word of the text of an expression is not reserved, if it has one. -/
theorem Begins.word_free (begins : Begins l) : (word l).1 ∉ Kind.reserved.map (·.1) := by
  have wordless : ∀ {c : Char} {tail : List Char}, Text.isAlphabetic c = false →
      (word (c :: tail)).1 ∉ Kind.reserved.map (·.1) := by
    intro c tail no_letter
    rw [word, piece, List.takeWhile_cons_of_neg (by simp [no_letter])]
    exact (by decide : "" ∉ Kind.reserved.map (·.1))
  cases begins with
  | mark listed => exact wordless (by rcases listed with rfl | rfl | rfl <;> rfl)
  | digit digit =>
    refine wordless (Bool.eq_false_iff.mpr fun letter => ?_)
    rw [Token.isDigit_of_alphabetic letter] at digit
    cases digit
  | name is_name ends =>
    rw [word_name is_name ends]
    exact is_name.2.2

/-! One step of the reader for each kind of expression. -/

/-- Two expressions in parentheses with a sign between. -/
theorem group_joined {left right : List Char} {a b : Expr} {symbol : String}
    {join : Expr → Expr → Expr} (no_not : left.head? ≠ some '!')
    (first : Gives (expr · left) (a, " ".toList ++ (symbol.toList ++ (" ".toList ++ right))))
    (no_blank : ∀ c ∈ symbol.toList, decide (c ≠ ' ') = true) (known : sign symbol = some join)
    (second : Gives (expr · right) (b, ")".toList ++ r)) : Gives (group · left) (join a b, r) := by
  have signs : piece (fun c => decide (c ≠ ' ')) (symbol.toList ++ (" ".toList ++ right)) =
      (symbol, " ".toList ++ right) := by
    refine piece_append no_blank ?_
    rintro c ⟨⟩
    rfl
  refine gives_of_deeper ?_
  filter_upwards [first, second] with n first second
  rw [group]
  · simp only [first, signs, known, second, skip_append, Option.bind_eq_bind, Option.bind_some]
    rfl
  · rintro tail rfl
    exact no_not rfl

theorem plain_name {name : String} (is_name : IsName name) (ends : Delimited r) :
    plain (name.toList ++ r) = some (.name name .unplaced, r) := by
  rw [plain, word_name is_name ends]
  split
  · next empty =>
    cases empty
    exact absurd rfl is_name.1
  · next same =>
    cases same
    rfl

theorem plain_number {value : Number} (literal : value.IsLiteral) (ends : Delimited r) :
    plain (value.sourceText.toList ++ r) = some (.number value .unplaced, r) := by
  obtain ⟨digits, text, full, all, denotes⟩ := literal.reads
  obtain ⟨c, tail, rfl⟩ := List.exists_cons_of_ne_nil full
  have no_letter : Text.isAlphabetic c = false := by
    refine Bool.eq_false_iff.mpr fun letter => ?_
    have digit := all c List.mem_cons_self
    rw [Token.isDigit_of_alphabetic letter] at digit
    cases digit
  have wordless : word ((c :: tail) ++ r) = ("", (c :: tail) ++ r) := by
    rw [word, piece, List.cons_append, List.takeWhile_cons_of_neg (by simp [no_letter]),
      List.dropWhile_cons_of_neg (by simp [no_letter])]
  have read : piece Char.isDigit ((String.ofList (c :: tail)).toList ++ r) =
      (String.ofList (c :: tail), r) :=
    piece_append (by rwa [String.toList_ofList]) fun d head => (ends d head).2
  rw [String.toList_ofList] at read
  rw [text, String.toList_ofList, plain, wordless]
  simp only [read, String.toList_ofList, denotes, Option.bind_eq_bind, Option.bind_some]
  rfl

theorem quoted_text {value : String} (free : '\'' ∉ value.toList) :
    quoted (value.toList ++ ("'".toList ++ r)) = some (.text value .unplaced, r) := by
  have inside : piece (fun c => decide (c ≠ '\'')) (value.toList ++ ("'".toList ++ r)) =
      (value, "'".toList ++ r) := by
    refine piece_append (fun c member => decide_eq_true fun same => free (same ▸ member)) ?_
    rintro c ⟨⟩
    rfl
  simp only [quoted, inside, skip_append, Option.bind_eq_bind, Option.bind_some]
  rfl

theorem atom_group {e : Expr} (inside : Gives (group · l) (e, r)) :
    Gives (atom · ('(' :: l)) (e, r) := by
  refine gives_of_deeper ?_
  filter_upwards [inside] with n inside
  rw [atom]
  exact inside

theorem atom_object {e : Expr} (inside : Gives (object · l) (e, r)) :
    Gives (atom · ('\x7b' :: l)) (e, r) := by
  refine gives_of_deeper ?_
  filter_upwards [inside] with n inside
  rw [atom]
  exact inside

theorem atom_text {value : String} (free : '\'' ∉ value.toList) :
    Gives (atom · ('\'' :: (value.toList ++ ("'".toList ++ r)))) (.text value .unplaced, r) := by
  refine gives_of_deeper (.of_forall fun n => ?_)
  rw [atom]
  exact quoted_text free

/-- What begins with a letter or a digit is a name or a number. -/
theorem atom_plain {c : Char} {e : Expr} (h : Text.isAlphabetic c = true ∨ c.isDigit = true)
    (reads : plain (c :: l) = some (e, r)) : Gives (atom · (c :: l)) (e, r) := by
  have other : ∀ mark : Char, (Text.isAlphabetic mark = false ∧ mark.isDigit = false) → c ≠ mark := by
    rintro mark none_ rfl
    rw [none_.1, none_.2] at h
    simp at h
  refine gives_of_deeper (.of_forall fun n => ?_)
  rw [atom]
  · exact reads
  · exact fun tail same => other '(' (by decide) (List.head_eq_of_cons_eq same)
  · exact fun tail same => other '\x7b' (by decide) (List.head_eq_of_cons_eq same)
  · exact fun tail same => other '\'' (by decide) (List.head_eq_of_cons_eq same)

theorem object_empty : Gives (object · ('\x7d' :: r)) (.object [] .unplaced, r) := by
  refine gives_of_deeper (.of_forall fun n => ?_)
  rw [object]

theorem object_properties {ps : List Property} (inside : Gives (properties · l) (ps, r)) :
    Gives (object · (" ".toList ++ l)) (.object ps .unplaced, r) := by
  refine gives_of_deeper ?_
  filter_upwards [inside] with n inside
  rw [object]
  · simp only [skip_append, inside, Option.bind_eq_bind, Option.bind_some]
    rfl
  · exact fun tail same => absurd (List.head_eq_of_cons_eq same) (by decide)

theorem group_not {e : Expr} (inside : Gives (expr · l) (e, ")".toList ++ r)) :
    Gives (group · ('!' :: l)) (.not e .unplaced, r) := by
  refine gives_of_deeper ?_
  filter_upwards [inside] with n inside
  rw [group]
  simp only [inside, skip_append, Option.bind_eq_bind, Option.bind_some]
  rfl

theorem someArgs_last {e : Expr} (first : Gives (expr · l) (e, ")".toList ++ r)) :
    Gives (someArgs · l) ([e], r) := by
  have closing : skip ")" (')' :: r) = some r := skip_append
  refine gives_of_deeper ?_
  filter_upwards [first] with n first
  rw [someArgs, first]
  change (skip ")" (')' :: r) >>= fun l => some ([e], l)) = _
  rw [closing]
  rfl

theorem someArgs_more {e : Expr} {es : List Expr} {others : List Char}
    (first : Gives (expr · l) (e, ", ".toList ++ others))
    (rest : Gives (someArgs · others) (es, r)) : Gives (someArgs · l) (e :: es, r) := by
  have blank : skip " " (' ' :: others) = some others := skip_append
  refine gives_of_deeper ?_
  filter_upwards [first, rest] with n first rest
  rw [someArgs, first]
  change (skip " " (' ' :: others) >>= fun l =>
    someArgs n l >>= fun x => some (e :: x.1, x.2)) = _
  rw [blank, Option.bind_eq_bind, Option.bind_some, rest]
  rfl

section
variable {key : String} {value : Expr}

/-- The key of a property is read before its value. -/
theorem word_key (is_name : IsName key) :
    word (key.toList ++ (": ".toList ++ l)) = (key, ": ".toList ++ l) :=
  word_name is_name (delimited_cons ⟨rfl, rfl⟩)

theorem properties_last (is_name : IsName key)
    (first : Gives (expr · l) (value, " \x7d".toList ++ r)) :
    Gives (properties · (key.toList ++ (": ".toList ++ l))) ([.mk key value .unplaced], r) := by
  have closing : skip " \x7d" (' ' :: '\x7d' :: r) = some r := skip_append
  refine gives_of_deeper ?_
  filter_upwards [first] with n first
  rw [properties, word_key is_name]
  simp only [skip_append, first, Option.bind_eq_bind, Option.bind_some]
  change (skip " \x7d" (' ' :: '\x7d' :: r) >>= fun l =>
    some ([Property.mk key value .unplaced], l)) = _
  rw [closing]
  rfl

theorem properties_more {ps : List Property} {others : List Char} (is_name : IsName key)
    (first : Gives (expr · l) (value, ", ".toList ++ others))
    (rest : Gives (properties · others) (ps, r)) :
    Gives (properties · (key.toList ++ (": ".toList ++ l)))
      (.mk key value .unplaced :: ps, r) := by
  have blank : skip " " (' ' :: others) = some others := skip_append
  refine gives_of_deeper ?_
  filter_upwards [first, rest] with n first rest
  rw [properties, word_key is_name]
  simp only [skip_append, first, Option.bind_eq_bind, Option.bind_some]
  change (skip " " (' ' :: others) >>= fun l =>
    properties n l >>= fun x => some (Property.mk key value .unplaced :: x.1, x.2)) = _
  rw [blank, Option.bind_eq_bind, Option.bind_some, rest]
  rfl

end

section
variable {e : Expr} {x : Expr × List Char}

theorem suffixes_member {property : String} (named : word l = (property, r))
    (rest : Gives (suffixes · (.member e property .unplaced) r) x) :
    Gives (suffixes · e ('.' :: l)) x := by
  refine gives_of_deeper ?_
  filter_upwards [rest] with n rest
  rw [suffixes]
  simp only [named, rest]

theorem suffixes_call {es : List Expr} (list : Gives (args · l) (es, r))
    (rest : Gives (suffixes · (.call e es .unplaced) r) x) :
    Gives (suffixes · e ('(' :: l)) x := by
  refine gives_of_deeper ?_
  filter_upwards [list, rest] with n list rest
  rw [suffixes]
  simp only [list, rest, Option.bind_eq_bind, Option.bind_some]

end

theorem args_none : Gives (args · (')' :: r)) ([], r) := by
  refine gives_of_deeper (.of_forall fun n => ?_)
  rw [args]

theorem args_some {es : List Expr} (no_closing : l.head? ≠ some ')')
    (list : Gives (someArgs · l) (es, r)) : Gives (args · l) (es, r) := by
  refine gives_of_deeper ?_
  filter_upwards [list] with n list
  rw [args]
  · exact list
  · rintro tail rfl
    exact no_closing rfl

/-! Along the tree. -/

/-- The text of an expression is read, and what extends it with it. -/
def Reads (e : Expr) : Prop :=
  ∀ r, Delimited r → ∀ x, Gives (suffixes · e.shape r) x → Gives (expr · (e.render.toList ++ r)) x

/-- Where nothing extends an expression, it is read alone. -/
theorem Reads.final {e : Expr} (reads : Reads e) (final : Final r) :
    Gives (expr · (e.render.toList ++ r)) (e.shape, r) :=
  reads r final.delimited _ (suffixes_final _ final)

theorem someArgs_render {e : Expr} {es : List Expr} (all : ∀ f ∈ e :: es, Reads f) :
    Gives (someArgs · ((", ".intercalate (renderArgs (e :: es))).toList ++ (")".toList ++ r)))
      (exprShapes (e :: es), r) := by
  induction es generalizing e with
  | nil =>
    rw [renderArgs, renderArgs, String.intercalate_singleton]
    exact someArgs_last ((all e List.mem_cons_self).final (final_cons (by decide)))
  | cons next rest ih =>
    rw [List.forall_mem_cons] at all
    rw [renderArgs, renderArgs, String.intercalate_cons_cons]
    simp only [String.toList_append, List.append_assoc]
    exact someArgs_more (all.1.final (final_cons (by decide))) (ih all.2)

theorem begins_args {e : Expr} (readable : e.Readable) (es : List Expr) :
    Begins ((", ".intercalate (renderArgs (e :: es))).toList ++ (")".toList ++ r)) := by
  cases es with
  | nil =>
    rw [renderArgs, renderArgs, String.intercalate_singleton]
    exact begins_of_readable e readable (delimited_cons ⟨rfl, rfl⟩)
  | cons next rest =>
    rw [renderArgs, renderArgs, String.intercalate_cons_cons]
    simp only [String.toList_append, List.append_assoc]
    exact begins_of_readable e readable (delimited_cons ⟨rfl, rfl⟩)

theorem args_render {es : List Expr} (readable : ∀ e ∈ es, e.Readable) (all : ∀ e ∈ es, Reads e) :
    Gives (args · ((", ".intercalate (renderArgs es)).toList ++ (")".toList ++ r)))
      (exprShapes es, r) := by
  cases es with
  | nil => exact args_none
  | cons e rest =>
    have begins := begins_args (readable e List.mem_cons_self) rest (r := r)
    exact args_some (begins.head (.inr (.inl rfl))) (someArgs_render all)

theorem properties_render {p : Property} {ps : List Property} (keys : ∀ q ∈ p :: ps, IsName q.key)
    (all : ∀ q ∈ p :: ps, Reads q.value) :
    Gives (properties ·
      ((", ".intercalate (renderProperties (p :: ps))).toList ++ (" \x7d".toList ++ r)))
      (propertyShapes (p :: ps), r) := by
  obtain ⟨key, value, span⟩ := p
  rw [List.forall_mem_cons] at keys all
  induction ps generalizing key value span with
  | nil =>
    rw [renderProperties, renderProperties, String.intercalate_singleton, Property.render]
    simp only [String.toList_append, List.append_assoc]
    exact properties_last keys.1 (all.1.final (final_cons (by decide)))
  | cons next rest ih =>
    obtain ⟨other, value', span'⟩ := next
    rw [renderProperties, renderProperties, String.intercalate_cons_cons, Property.render]
    simp only [String.toList_append, List.append_assoc]
    refine properties_more keys.1 (all.1.final (final_cons (by decide))) ?_
    exact ih other value' span' (List.forall_mem_cons.mp keys.2) (List.forall_mem_cons.mp all.2)

mutual

theorem reads_of_readable : ∀ e : Expr, e.Readable → Reads e
  | .assign target value span, readable, r, _, x, rest => by
    have second : Gives (expr · (value.render.toList ++ (")".toList ++ r)))
        (value.shape, ")".toList ++ r) :=
      (reads_of_readable value (readable.child .assigned)).final (final_cons (by decide))
    have first : Gives (expr · (target.render.toList ++ (" = ".toList ++ (value.render.toList ++
        (")".toList ++ r))))) (target.shape, " ".toList ++ ("=".toList ++ (" ".toList ++
          (value.render.toList ++ (")".toList ++ r))))) :=
      (reads_of_readable target (readable.child .target)).final (final_cons (by decide))
    have begins := begins_of_readable target (readable.child .target)
      (r := " = ".toList ++ (value.render.toList ++ (")".toList ++ r))) (delimited_cons (by decide))
    have known : sign "=" = some fun target value => .assign target value .unplaced := rfl
    have no_blank : ∀ c ∈ "=".toList, decide (c ≠ ' ') = true := List.all_eq_true.mp (by decide)
    simp only [Expr.render, String.toList_append, List.append_assoc]
    exact expr_of_atom
      (atom_group (group_joined (begins.head (.inl rfl)) first no_blank known second)) rest
  | .object [] span, _, r, _, x, rest => by
    simp only [Expr.render]
    exact expr_of_atom (atom_object object_empty) rest
  | .object (first :: others) span, readable, r, _, x, rest => by
    have values := reads_values (first :: others) fun p member => readable.child (.property member)
    simp only [Expr.render, String.toList_append, List.append_assoc]
    exact expr_of_atom
      (atom_object (object_properties (properties_render readable.own.1 values))) rest
  | .binary op left right span, readable, r, _, x, rest => by
    have second : Gives (expr · (right.render.toList ++ (")".toList ++ r)))
        (right.shape, ")".toList ++ r) :=
      (reads_of_readable right (readable.child .right)).final (final_cons (by decide))
    have first : Gives (expr · (left.render.toList ++ (" ".toList ++ (op.symbol.toList ++
        (" ".toList ++ (right.render.toList ++ (")".toList ++ r))))))) (left.shape, _) :=
      (reads_of_readable left (readable.child .left)).final (final_cons (by decide))
    have begins := begins_of_readable left (readable.child .left)
      (r := " ".toList ++ (op.symbol.toList ++ (" ".toList ++
        (right.render.toList ++ (")".toList ++ r))))) (delimited_cons (by decide))
    simp only [Expr.render, String.toList_append, List.append_assoc]
    exact expr_of_atom (atom_group (group_joined (begins.head (.inl rfl)) first
      (symbol_no_blank op) (sign_symbol op) second)) rest
  | .not operand span, readable, r, _, x, rest => by
    have inside : Gives (expr · (operand.render.toList ++ (")".toList ++ r)))
        (operand.shape, ")".toList ++ r) :=
      (reads_of_readable operand (readable.child .operand)).final (final_cons (by decide))
    simp only [Expr.render, String.toList_append, List.append_assoc]
    exact expr_of_atom (atom_group (group_not inside)) rest
  | .call callee args span, readable, r, ends, x, rest => by
    have each : ∀ e ∈ args, e.Readable := fun e member => readable.child (.arg member)
    have list := args_render each (reads_args args each) (r := r)
    simp only [Expr.render, String.toList_append, List.append_assoc]
    exact reads_of_readable callee (readable.child .callee) _ (delimited_cons ⟨rfl, rfl⟩) x
      (suffixes_call list rest)
  | .member object property span, readable, r, ends, x, rest => by
    simp only [Expr.render, String.toList_append, List.append_assoc]
    exact reads_of_readable object (readable.child .object) _ (delimited_cons ⟨rfl, rfl⟩) x
      (suffixes_member (word_name readable.own.1 ends) rest)
  | .name name span, readable, r, ends, x, rest => by
    have read := plain_name readable.own.1 ends
    obtain ⟨c, tail, letters⟩ := List.exists_cons_of_ne_nil readable.own.1.toList_ne_nil
    have letter : Text.isAlphabetic c = true := readable.own.1.2.1 c (by simp [letters])
    rw [letters] at read
    rw [Expr.render, letters]
    exact expr_of_atom (atom_plain (.inl letter) read) rest
  | .number value span, readable, r, ends, x, rest => by
    have literal := Number.isLiteral_of_readable readable.own
    have read := plain_number literal ends
    obtain ⟨digits, text, full, all, -⟩ := literal.reads
    obtain ⟨c, tail, rfl⟩ := List.exists_cons_of_ne_nil full
    rw [text, String.toList_ofList] at read
    rw [Expr.render, text, String.toList_ofList]
    exact expr_of_atom (atom_plain (.inr (all c List.mem_cons_self)) read) rest
  | .text value span, readable, r, _, x, rest => by
    simp only [Expr.render, String.toList_append, List.append_assoc]
    exact expr_of_atom (atom_text readable.own.2) rest

theorem reads_args : ∀ es : List Expr, (∀ e ∈ es, e.Readable) → ∀ e ∈ es, Reads e
  | [], _ => nofun
  | first :: rest, readable => by
    rw [List.forall_mem_cons] at readable ⊢
    exact ⟨reads_of_readable first readable.1, reads_args rest readable.2⟩

theorem reads_values : ∀ ps : List Property, (∀ p ∈ ps, p.value.Readable) →
    ∀ p ∈ ps, Reads p.value
  | [], _ => nofun
  | .mk _ value _ :: rest, readable => by
    rw [List.forall_mem_cons] at readable ⊢
    exact ⟨reads_of_readable value readable.1, reads_values rest readable.2⟩

end

end Readback

end Scriptlet
