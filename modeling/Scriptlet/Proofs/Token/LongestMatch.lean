import Scriptlet.Proofs.Token.Scanning

/-!
# Longest lexemes

Which texts each class of tokens admits (`Kind.Admits`), and which character behind a lexeme belongs
to it (`Grows`), said without the scanner. What stands at a character is a lexeme just if an
admitted text begins there that does not grow (`step_of_admits`, `leads_of_step`).
-/
namespace Scriptlet

namespace Token

namespace Kind

/-- Lexemes of one character that never begin a longer one. -/
def marks : List (Char × Kind) :=
  [('(', openParen), (')', closeParen), ('\x7b', openBrace), ('\x7d', closeBrace),
   (';', semicolon), (':', colon), (',', comma), ('.', period), ('+', arithmetic),
   ('-', arithmetic), ('*', arithmetic), ('/', arithmetic), ('%', arithmetic)]

/-- Lexemes of one character that a `=` makes a comparison. -/
def operators : List (Char × Kind) :=
  [('=', assign), ('!', negation), ('<', comparison), ('>', comparison)]

/-- The texts that belong to a class of tokens. The end of the input has no text. -/
inductive Admits : Kind → List Char → Prop
  | mark {c kind} (listed : (c, kind) ∈ marks) : Admits kind [c]
  | operator {c kind} (listed : (c, kind) ∈ operators) : Admits kind [c]
  | comparison {c kind} (listed : (c, kind) ∈ operators) : Admits comparison [c, '=']
  | logical {c} (half : c = '&' ∨ c = '|') : Admits logical [c, c]
  | number {digits} (full : digits ≠ []) (all : ∀ c ∈ digits, c.isDigit = true) :
      Admits number digits
  | text {quote inside} (quotes : quote = '"' ∨ quote = '\'') (unquoted : quote ∉ inside) :
      Admits text (quote :: (inside ++ [quote]))
  | keyword {word kind} (listed : (word, kind) ∈ reserved) : Admits kind word.toList
  | name {letters} (full : letters ≠ []) (all : ∀ c ∈ letters, Text.isAlphabetic c = true)
      (free : ∀ kind, (String.ofList letters, kind) ∉ reserved) : Admits name letters

end Kind

/-- A character that belongs to the lexeme before it: a digit behind digits, a letter behind
letters, and a `=` behind an operator that it makes a comparison. -/
inductive Grows : List Char → Char → Prop
  | digit {text next} (digits : ∀ c ∈ text, c.isDigit = true) (more : next.isDigit = true) :
      Grows text next
  | letter {text next} (letters : ∀ c ∈ text, Text.isAlphabetic c = true)
      (more : Text.isAlphabetic next = true) : Grows text next
  | equals {c kind} (listed : (c, kind) ∈ Kind.operators) : Grows [c] '='

variable {kind : Kind} {text inside rest : List Char} {c : Char}

namespace Kind

theorem ofWord_of_mem {word : String} (listed : (word, kind) ∈ reserved) : ofWord word = kind := by
  have all : ∀ entry ∈ reserved, ofWord entry.1 = entry.2 := by decide
  exact all _ listed

theorem ofWord_of_free {word : String} (free : ∀ kind, (word, kind) ∉ reserved) :
    ofWord word = name := by
  unfold ofWord
  cases found : reserved.lookup word with
  | none => rfl
  | some kind =>
    obtain ⟨front, back, split, -⟩ := List.lookup_eq_some_iff.mp found
    exact absurd (by simp [split]) (free kind)

theorem alphabetic_of_reserved {word : String} (listed : (word, kind) ∈ reserved) :
    ∀ c ∈ word.toList, Text.isAlphabetic c = true := by
  have all : (reserved.all fun entry => entry.1.toList.all Text.isAlphabetic) = true := by decide
  exact List.all_eq_true.mp (List.all_eq_true.mp all _ listed)

/-- Letters are a lexeme of the class that the word has. -/
theorem admits_ofWord {letters : List Char} (full : letters ≠ [])
    (all : ∀ c ∈ letters, Text.isAlphabetic c = true) :
    Admits (ofWord (String.ofList letters)) letters := by
  by_cases listed : ∃ kind, (String.ofList letters, kind) ∈ reserved
  · obtain ⟨kind, listed⟩ := listed
    have keyword := Admits.keyword listed
    rwa [String.toList_ofList, ← ofWord_of_mem listed] at keyword
  · have free := not_exists.mp listed
    rw [ofWord_of_free free]
    exact .name full all free

theorem Admits.ne_nil (admitted : kind.Admits text) : text ≠ [] := by
  cases admitted with
  | number full _ => exact full
  | name full _ _ => exact full
  | keyword listed =>
    have all : ∀ entry ∈ reserved, entry.1.toList ≠ [] := by decide
    exact all _ listed
  | mark | operator | comparison | logical | text => exact List.cons_ne_nil _ _

theorem Admits.ne_endOfInput (admitted : kind.Admits text) : kind ≠ .endOfInput := by
  have no_entry : ∀ entry ∈ marks ++ operators, entry.2 ≠ .endOfInput := by decide
  have no_word : ∀ entry ∈ reserved, entry.2 ≠ .endOfInput := by decide
  cases admitted with
  | mark listed => exact no_entry _ (List.mem_append_left _ listed)
  | operator listed => exact no_entry _ (List.mem_append_right _ listed)
  | keyword listed => exact no_word _ listed
  | comparison | logical | number | text | name => decide

end Kind

theorem single?_of_mark (listed : (c, kind) ∈ Kind.marks) : single? c = some kind := by
  have all : ∀ entry ∈ Kind.marks, single? entry.1 = some entry.2 := by decide
  exact all _ listed

theorem beforeEquals?_of_operator (listed : (c, kind) ∈ Kind.operators) :
    single? c = none ∧ beforeEquals? c = some kind := by
  have all : ∀ entry ∈ Kind.operators,
    single? entry.1 = none ∧ beforeEquals? entry.1 = some entry.2 := by decide
  exact all _ listed

theorem mark_of_single? (h : single? c = some kind) : (c, kind) ∈ Kind.marks := by
  unfold single? at h
  split at h <;> cases h <;> decide

theorem operator_of_beforeEquals? (h : beforeEquals? c = some kind) :
    (c, kind) ∈ Kind.operators := by
  unfold beforeEquals? at h
  split at h <;> cases h <;> decide

theorem step_of_quote (quotes : c = '"' ∨ c = '\'') (rest : List Char) :
    step c rest = .quoted c rest := by
  rcases quotes with rfl | rfl <;> rfl

/-- A text literal ends at the first quote of its own kind. -/
theorem quoted_of_not_mem (unquoted : c ∉ inside) (rest : List Char) :
    Step.quoted c (inside ++ c :: rest) = .lexeme .text (inside.length + 1) := by
  have up_to : (inside ++ c :: rest).takeWhile (· ≠ c) = inside := by
    refine takeWhile_append ?_ ?_
    · intro d member
      exact decide_eq_true fun same => unquoted (same ▸ member)
    · intro d head
      obtain rfl : c = d := by simpa using head
      simp
  rw [Step.quoted, up_to, if_pos (by simp)]

/-! What stands at a character, given a text of a class that begins there. -/

section
variable (ends : ∀ next ∈ rest.head?, ¬ Grows (c :: inside) next)
include ends

theorem step_of_letters (all : ∀ d ∈ c :: inside, Text.isAlphabetic d = true) :
    step c (inside ++ rest) = .lexeme (.ofWord (String.ofList (c :: inside))) inside.length := by
  have letters : (inside ++ rest).takeWhile Text.isAlphabetic = inside := by
    refine takeWhile_append (fun d member => all d (List.mem_cons_of_mem c member)) ?_
    intro next head
    cases more : Text.isAlphabetic next with
    | false => rfl
    | true => exact absurd (.letter all more) (ends next head)
  rw [step_of_alphabetic (all c List.mem_cons_self), Step.word, letters]

theorem step_of_digits (all : ∀ d ∈ c :: inside, d.isDigit = true) :
    step c (inside ++ rest) = .lexeme .number inside.length := by
  have digits : (inside ++ rest).takeWhile Char.isDigit = inside := by
    refine takeWhile_append (fun d member => all d (List.mem_cons_of_mem c member)) ?_
    intro next head
    cases more : next.isDigit with
    | false => rfl
    | true => exact absurd (.digit all more) (ends next head)
  rw [step_of_digit (all c List.mem_cons_self), digits]

/-- An admitted text that does not grow is the lexeme that stands at its first character. -/
theorem step_of_admits (admitted : kind.Admits (c :: inside)) :
    step c (inside ++ rest) = .lexeme kind inside.length := by
  generalize whole : c :: inside = text at admitted
  cases admitted with
  | mark listed =>
    cases whole
    exact step_of_single (single?_of_mark listed) rest
  | operator listed =>
    cases whole
    obtain ⟨no_single, operator⟩ := beforeEquals?_of_operator listed
    have alone : rest.head? ≠ some '=' := fun head => ends '=' head (.equals listed)
    rw [step, no_single, operator]
    exact if_neg alone
  | comparison listed =>
    cases whole
    obtain ⟨no_single, operator⟩ := beforeEquals?_of_operator listed
    rw [step, no_single, operator]
    exact if_pos rfl
  | logical half =>
    cases whole
    rcases half with rfl | rfl <;> rfl
  | number full all =>
    subst whole
    exact step_of_digits ends all
  | text quotes unquoted =>
    cases whole
    rw [List.append_assoc, List.singleton_append, step_of_quote quotes, quoted_of_not_mem unquoted]
    simp
  | keyword listed =>
    have all := Kind.alphabetic_of_reserved listed
    rw [← whole] at all
    rw [step_of_letters ends all, whole, String.ofList_toList, Kind.ofWord_of_mem listed]
  | name full all free =>
    subst whole
    rw [step_of_letters ends all, Kind.ofWord_of_free free]

end

/-- A character that is neither a digit nor a letter begins no lexeme that grows, other than by a
`=` directly behind it. -/
theorem not_grows_of_sign {next : Char} (no_digit : c.isDigit = false)
    (no_letter : Text.isAlphabetic c = false)
    (alone : inside = [] → next = '=' → ∀ kind, (c, kind) ∉ Kind.operators) :
    ¬ Grows (c :: inside) next := by
  intro grows
  cases grows with
  | digit digits _ =>
    rw [digits c List.mem_cons_self] at no_digit
    cases no_digit
  | letter letters _ =>
    rw [letters c List.mem_cons_self] at no_letter
    cases no_letter
  | equals listed => exact alone rfl rfl _ listed

theorem no_word_of_mark (listed : (c, kind) ∈ Kind.marks ++ Kind.operators) :
    c.isDigit = false ∧ Text.isAlphabetic c = false := by
  have all : ∀ entry ∈ Kind.marks ++ Kind.operators,
    entry.1.isDigit = false ∧ Text.isAlphabetic entry.1 = false := by decide
  exact all _ listed

theorem not_operator_of_mark (listed : (c, kind) ∈ Kind.marks) (other : Kind) :
    (c, other) ∉ Kind.operators := by
  have all : ∀ entry ∈ Kind.marks, ∀ operator ∈ Kind.operators, entry.1 ≠ operator.1 := by decide
  exact fun operator => all _ listed _ operator rfl

/-- Only digits belong to a number. -/
theorem isDigit_of_grows {next : Char} (digit : c.isDigit = true)
    (grows : Grows (c :: inside) next) : next.isDigit = true := by
  cases grows with
  | digit _ more => exact more
  | letter letters _ =>
    rw [isDigit_of_alphabetic (letters c List.mem_cons_self)] at digit
    cases digit
  | equals listed =>
    rw [(no_word_of_mark (List.mem_append_right _ listed)).1] at digit
    cases digit

/-- Only letters belong to a word. -/
theorem isAlphabetic_of_grows {next : Char} (letter : Text.isAlphabetic c = true)
    (grows : Grows (c :: inside) next) : Text.isAlphabetic next = true := by
  cases grows with
  | digit digits _ =>
    have digit := digits c List.mem_cons_self
    rw [isDigit_of_alphabetic letter] at digit
    cases digit
  | letter _ more => exact more
  | equals listed =>
    rw [(no_word_of_mark (List.mem_append_right _ listed)).2] at letter
    cases letter

/-- A piece in front of a text that belongs to a class and does not grow. -/
structure Leads (kind : Kind) (text rest : List Char) : Prop where
  admitted : kind.Admits text
  ends : ∀ next ∈ rest.head?, ¬ Grows text next

theorem leads_mark (listed : (c, kind) ∈ Kind.marks) : Leads kind [c] rest := by
  obtain ⟨no_digit, no_letter⟩ := no_word_of_mark (List.mem_append_left _ listed)
  refine ⟨.mark listed, fun next _ => ?_⟩
  exact not_grows_of_sign no_digit no_letter fun _ _ => not_operator_of_mark listed

theorem leads_operator (listed : (c, kind) ∈ Kind.operators) (alone : rest.head? ≠ some '=') :
    Leads kind [c] rest := by
  obtain ⟨no_digit, no_letter⟩ := no_word_of_mark (List.mem_append_right _ listed)
  refine ⟨.operator listed, fun next head => ?_⟩
  apply not_grows_of_sign no_digit no_letter
  rintro - rfl
  exact absurd head alone

theorem leads_comparison (listed : (c, kind) ∈ Kind.operators) :
    Leads .comparison [c, '='] rest := by
  obtain ⟨no_digit, no_letter⟩ := no_word_of_mark (List.mem_append_right _ listed)
  exact ⟨.comparison listed, fun next _ => not_grows_of_sign no_digit no_letter (by simp)⟩

theorem leads_logical (half : c = '&' ∨ c = '|') : Leads .logical [c, c] rest := by
  refine ⟨.logical half, fun next _ => ?_⟩
  rcases half with rfl | rfl <;> exact not_grows_of_sign rfl rfl (by simp)

theorem leads_quoted (quotes : c = '"' ∨ c = '\'') (unquoted : c ∉ inside) :
    Leads .text (c :: (inside ++ [c])) rest := by
  refine ⟨.text quotes unquoted, fun next _ => ?_⟩
  rcases quotes with rfl | rfl <;> exact not_grows_of_sign rfl rfl (by simp)

/-- The text behind a run of characters of a class begins with none of them. -/
theorem not_of_head?_dropWhile {p : Char → Bool} {next : Char}
    (head : next ∈ (rest.dropWhile p).head?) : p next = false := by
  have stops := List.head?_dropWhile_not p rest
  rw [Option.mem_def.mp head] at stops
  exact stops

theorem leads_digits (digit : c.isDigit = true) :
    Leads .number (c :: rest.takeWhile Char.isDigit) (rest.dropWhile Char.isDigit) := by
  refine ⟨.number (List.cons_ne_nil _ _) ?_, fun next head grows => ?_⟩
  · exact List.forall_mem_cons.mpr ⟨digit, fun _ => List.mem_takeWhile_imp⟩
  · exact absurd (isDigit_of_grows digit grows) (by simp [not_of_head?_dropWhile head])

theorem leads_letters (letter : Text.isAlphabetic c = true) :
    Leads (.ofWord (String.ofList (c :: rest.takeWhile Text.isAlphabetic)))
      (c :: rest.takeWhile Text.isAlphabetic) (rest.dropWhile Text.isAlphabetic) := by
  refine ⟨Kind.admits_ofWord (List.cons_ne_nil _ _) ?_, fun next head grows => ?_⟩
  · exact List.forall_mem_cons.mpr ⟨letter, fun _ => List.mem_takeWhile_imp⟩
  · exact absurd (isAlphabetic_of_grows letter grows) (by simp [not_of_head?_dropWhile head])

theorem not_mem_takeWhile_ne : c ∉ rest.takeWhile (· ≠ c) := by
  intro member
  simpa using List.mem_takeWhile_imp member

/-- A text literal that is closed goes up to the first quote of its kind. -/
theorem eq_append_of_closed (closed : (rest.takeWhile (· ≠ c)).length < rest.length) :
    ∃ after, rest = (rest.takeWhile (· ≠ c) ++ [c]) ++ after := by
  have split := List.takeWhile_append_dropWhile (p := fun d => decide (d ≠ c)) (l := rest)
  cases behind : rest.dropWhile (fun d => decide (d ≠ c)) with
  | nil =>
    rw [behind, List.append_nil] at split
    rw [split] at closed
    exact absurd closed (Nat.lt_irrefl _)
  | cons d after =>
    have quote : decide (d ≠ c) = false :=
      not_of_head?_dropWhile (by rw [behind]; exact rfl : d ∈ (rest.dropWhile _).head?)
    obtain rfl : d = c := by simpa using quote
    rw [behind] at split
    exact ⟨after, by rw [List.append_assoc]; exact split.symm⟩

/-- The lexeme that stands at a character belongs to its class, and is as long as it can be. -/
theorem leads_of_step {more : Nat} (h : step c rest = .lexeme kind more) :
    ∃ inside after, rest = inside ++ after ∧ inside.length = more ∧
      Leads kind (c :: inside) after := by
  have run : ∀ p : Char → Bool, rest = rest.takeWhile p ++ rest.dropWhile p := fun p =>
    List.takeWhile_append_dropWhile.symm
  unfold step at h
  split at h
  case h_1 single =>
    cases h
    exact ⟨[], rest, rfl, rfl, leads_mark (mark_of_single? single)⟩
  case h_2 operator =>
    have listed := operator_of_beforeEquals? operator
    split at h <;> cases h
    case isTrue equals =>
      obtain ⟨after, rfl⟩ := List.head?_eq_some_iff.mp equals
      exact ⟨['='], after, rfl, rfl, leads_comparison listed⟩
    case isFalse alone => exact ⟨[], rest, rfl, rfl, leads_operator listed alone⟩
  case h_3 =>
    split at h
    case isTrue half =>
      split at h <;> cases h
      case isTrue twice =>
        obtain ⟨after, rfl⟩ := List.head?_eq_some_iff.mp twice
        exact ⟨[c], after, rfl, rfl, leads_logical (by simpa using half)⟩
    split at h
    case isTrue => cases h
    split at h
    case isTrue quotes =>
      simp only [Step.quoted] at h
      split at h <;> cases h
      case isTrue closed =>
        obtain ⟨after, split⟩ := eq_append_of_closed closed
        have quotes : c = '"' ∨ c = '\'' := by simpa [isQuote] using quotes
        exact ⟨_, after, split, by simp, leads_quoted quotes not_mem_takeWhile_ne⟩
    split at h
    case isTrue digit =>
      cases h
      exact ⟨_, _, run Char.isDigit, rfl, leads_digits digit⟩
    split at h
    case isTrue letter =>
      cases h
      exact ⟨_, _, run Text.isAlphabetic, rfl, leads_letters letter⟩
    cases h

end Token

end Scriptlet
