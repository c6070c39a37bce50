import Mathlib.Data.List.TakeWhile
import Scriptlet.Proofs.Token.Lexeme
import Scriptlet.Token.Scan

/-!
# Texts and the lexemes that they are read as

`Scans text lexemes rest` says how a piece of text is read when `rest` follows it, wherever it
stands. Pieces are put together by `Scans.append`. What follows matters for words and numbers only,
which end where a character of another class begins.
-/
namespace Scriptlet

namespace Token

variable {kind : Kind} {text front back rest : List Char} {c : Char}

/-- In front of `rest`, a text is read as the given lexemes, and reading goes on with `rest`. -/
def Scans (text : List Char) (ls : List Lexeme) (rest : List Char) : Prop :=
  ∀ offset more, scanFrom (offset + text.length) 0 rest = .ok more →
    ∃ tokens, scanFrom offset 0 (text ++ rest) = .ok (tokens ++ more) ∧ lexemes tokens = ls

theorem scans_nil : Scans [] [] rest := fun _ _ h => ⟨[], h, rfl⟩

theorem Scans.append {ls ms : List Lexeme} (first : Scans front ls (back ++ rest))
    (second : Scans back ms rest) : Scans (front ++ back) (ls ++ ms) rest := by
  intro offset more h
  rw [List.length_append, ← Nat.add_assoc] at h
  obtain ⟨later, read_later, rfl⟩ := second _ _ h
  obtain ⟨earlier, read, rfl⟩ := first _ _ read_later
  refine ⟨earlier ++ later, ?_, lexemes_append earlier later⟩
  rw [List.append_assoc, read, List.append_assoc]

theorem scans_blank (h : step c rest = .blank) : Scans [c] [] rest := by
  intro offset more read
  refine ⟨[], ?_, rfl⟩
  rw [List.singleton_append, scanFrom, h]
  exact read

/-- A lexeme is passed over as a whole. -/
theorem scans_lexeme {inside : List Char}
    (h : step c (inside ++ rest) = .lexeme kind inside.length) :
    Scans (c :: inside) [⟨kind, String.ofList (c :: inside)⟩] rest := by
  intro offset more read
  have passed : scanFrom (offset + 1) inside.length (inside ++ rest) = .ok more := by
    rw [scanFrom_eq_drop _ _ _ (by simp), List.drop_left, Nat.add_assoc, Nat.add_comm 1]
    exact read
  refine ⟨[⟨kind, String.ofList (c :: inside), ⟨offset, offset + inside.length + 1⟩⟩], ?_, rfl⟩
  rw [List.cons_append, scanFrom, h]
  simp only [passed, List.take_left]
  rfl

/-- A lexeme of one character. -/
theorem scans_single (h : step c rest = .lexeme kind 0) :
    Scans [c] [⟨kind, String.ofList [c]⟩] rest :=
  scans_lexeme h

theorem Scans.space {ls : List Lexeme} (after : Scans back ls rest) :
    Scans (' ' :: back) ls rest :=
  (scans_blank rfl : Scans [' '] [] (back ++ rest)).append after

theorem step_of_single {c : Char} (h : single? c = some kind) (rest : List Char) :
    step c rest = .lexeme kind 0 := by
  rw [step, h]

theorem Scans.single {ls : List Lexeme} (h : single? c = some kind) (after : Scans back ls rest) :
    Scans (c :: back) (⟨kind, String.ofList [c]⟩ :: ls) rest :=
  (scans_single (step_of_single h (back ++ rest))).append after

theorem isDigit_of_alphabetic (h : Text.isAlphabetic c = true) : c.isDigit = false := by
  cases digit : c.isDigit with
  | false => rfl
  | true =>
    simp only [Char.isDigit, Bool.and_eq_true, decide_eq_true_eq, ge_iff_le,
      UInt32.le_iff_toNat_le] at digit
    have nine : c.toNat ≤ 57 := digit.2
    rw [Text.isAlphabetic_of_lt (by omega)] at h
    delta Char.isAlpha Char.isUpper Char.isLower at h
    simp only [Bool.or_eq_true, Bool.and_eq_true, decide_eq_true_eq, ge_iff_le,
      UInt32.le_iff_toNat_le] at h
    rcases h with ⟨capital, -⟩ | ⟨small, -⟩
    · have letter : 65 ≤ c.toNat := capital
      omega
    · have letter : 97 ≤ c.toNat := small
      omega

theorem step_of_alphabetic (h : Text.isAlphabetic c = true) (rest : List Char) :
    step c rest = .word c rest := by
  have no_single : single? c = none := by
    unfold single?
    split <;> first | rfl | exact absurd h (by decide)
  have no_operator : beforeEquals? c = none := by
    unfold beforeEquals?
    split <;> first | rfl | exact absurd h (by decide)
  have other : ∀ special : Char, Text.isAlphabetic special = false → c ≠ special := by
    rintro special not_alphabetic rfl
    rw [h] at not_alphabetic
    cases not_alphabetic
  have no_half : ¬ (c = '&' ∨ c = '|') := by simp [other '&' rfl, other '|' rfl]
  have no_blank : isSeparator c = false := by
    simp [isSeparator, other ' ' rfl, other '\t' rfl, other '\n' rfl, other '\r' rfl]
  have no_quote : isQuote c = false := by simp [isQuote, other '"' rfl, other '\'' rfl]
  simp [step, no_single, no_operator, no_half, no_blank, no_quote, isDigit_of_alphabetic h, h]

theorem step_of_digit (h : c.isDigit = true) (rest : List Char) :
    step c rest = .lexeme .number (rest.takeWhile Char.isDigit).length := by
  have no_single : single? c = none := by
    unfold single?
    split <;> first | rfl | exact absurd h (by decide)
  have no_operator : beforeEquals? c = none := by
    unfold beforeEquals?
    split <;> first | rfl | exact absurd h (by decide)
  have other : ∀ special : Char, special.isDigit = false → c ≠ special := by
    rintro special not_digit rfl
    rw [h] at not_digit
    cases not_digit
  simp [step, no_single, no_operator, isSeparator, isQuote, other, h]

/-- What ends a word and a number: the end of the text, or a character that belongs to neither. -/
def Delimited (rest : List Char) : Prop :=
  ∀ c ∈ rest.head?, Text.isAlphabetic c = false ∧ c.isDigit = false

theorem delimited_cons (h : Text.isAlphabetic c = false ∧ c.isDigit = false) :
    Delimited (c :: rest) := by
  intro d head
  obtain rfl : c = d := by simpa using head
  exact h

theorem delimited_nil : Delimited [] := by
  intro c head
  cases head

/-- Characters of a class are read up to one of another class. -/
theorem takeWhile_append {p : Char → Bool} (all : ∀ c ∈ text, p c = true)
    (ends : ∀ c ∈ rest.head?, p c = false) : (text ++ rest).takeWhile p = text := by
  rw [List.takeWhile_append_of_pos all]
  cases rest with
  | nil => rw [List.takeWhile_nil, List.append_nil]
  | cons c tail => rw [List.takeWhile_cons_of_neg (by simp [ends c rfl]), List.append_nil]

theorem scans_word (full : text ≠ []) (all : ∀ c ∈ text, Text.isAlphabetic c = true)
    (ends : Delimited rest) :
    Scans text [⟨.ofWord (String.ofList text), String.ofList text⟩] rest := by
  obtain ⟨c, inside, rfl⟩ := List.exists_cons_of_ne_nil full
  have letters : (inside ++ rest).takeWhile Text.isAlphabetic = inside :=
    takeWhile_append (fun d member => all d (List.mem_cons_of_mem c member))
      fun d head => (ends d head).1
  apply scans_lexeme
  rw [step_of_alphabetic (all c List.mem_cons_self), Step.word, letters]

theorem scans_number (full : text ≠ []) (all : ∀ c ∈ text, c.isDigit = true)
    (ends : Delimited rest) : Scans text [⟨.number, String.ofList text⟩] rest := by
  obtain ⟨c, inside, rfl⟩ := List.exists_cons_of_ne_nil full
  have digits : (inside ++ rest).takeWhile Char.isDigit = inside :=
    takeWhile_append (fun d member => all d (List.mem_cons_of_mem c member))
      fun d head => (ends d head).2
  apply scans_lexeme
  rw [step_of_digit (all c List.mem_cons_self), digits]

/-- A text literal ends at its closing quote, whatever follows. -/
theorem scans_text {inside : List Char} (unquoted : '\'' ∉ inside) :
    Scans ('\'' :: (inside ++ ['\'']))
      [⟨.text, String.ofList ('\'' :: (inside ++ ['\'']))⟩] rest := by
  have spelled : inside ++ ['\''] ++ rest = inside ++ '\'' :: rest := by simp
  have up_to : (inside ++ '\'' :: rest).takeWhile (· ≠ '\'') = inside := by
    refine takeWhile_append ?_ ?_
    · intro c member
      exact decide_eq_true fun same => unquoted (same ▸ member)
    · intro c head
      obtain rfl : '\'' = c := by simpa using head
      rfl
  apply scans_lexeme
  have begins : step '\'' (inside ++ ['\''] ++ rest) = .quoted '\'' (inside ++ ['\''] ++ rest) := rfl
  rw [begins, spelled, Step.quoted, up_to, if_pos (by simp)]
  simp

theorem Kind.ofWord_ne_endOfInput (word : String) : Kind.ofWord word ≠ .endOfInput := by
  unfold Kind.ofWord
  cases found : Kind.reserved.lookup word with
  | none => decide
  | some kind =>
    obtain ⟨front, back, reserved, -⟩ := List.lookup_eq_some_iff.mp found
    have entry : (word, kind) ∈ Kind.reserved := by simp [reserved]
    have all : ∀ entry ∈ Kind.reserved, entry.2 ≠ .endOfInput := by decide
    exact all (word, kind) entry

theorem single?_ne_endOfInput (h : single? c = some kind) : kind ≠ .endOfInput := by
  rintro rfl
  unfold single? at h
  split at h <;> cases h

theorem beforeEquals?_ne_endOfInput (h : beforeEquals? c = some kind) : kind ≠ .endOfInput := by
  rintro rfl
  unfold beforeEquals? at h
  split at h <;> cases h

/-- The marker of the end is never read from characters. -/
theorem step_ne_endOfInput {more : Nat} (h : step c rest = .lexeme kind more) :
    kind ≠ .endOfInput := by
  unfold step at h
  split at h
  case h_1 single =>
    cases h
    exact single?_ne_endOfInput single
  case h_2 operator =>
    split at h
    · cases h
      decide
    · cases h
      exact beforeEquals?_ne_endOfInput operator
  case h_3 =>
    repeat' split at h
    case isTrue.isTrue =>
      cases h
      decide
    case isFalse.isFalse.isTrue =>
      simp only [Step.quoted] at h
      split at h <;> cases h
      decide
    case isFalse.isFalse.isFalse.isTrue =>
      cases h
      decide
    case isFalse.isFalse.isFalse.isFalse.isTrue =>
      cases h
      exact Kind.ofWord_ne_endOfInput _
    all_goals cases h

/-- A text that is read ends with its only end marker. -/
theorem scanFrom_ok {offset pending : Nat} {tokens : List Token}
    (h : scanFrom offset pending text = .ok tokens) :
    ∃ last, tokens = beforeEnd tokens ++ [endMarker last] := by
  induction text generalizing offset pending tokens with
  | nil =>
    cases h
    exact ⟨offset, rfl⟩
  | cons c rest ih =>
    cases pending with
    | succ pending => exact ih h
    | zero =>
      rw [scanFrom] at h
      cases stands : step c rest with
      | blank =>
        rw [stands] at h
        exact ih h
      | fault cause size =>
        rw [stands] at h
        cases h
      | lexeme kind more =>
        cases read : scanFrom (offset + 1) more rest with
        | error e =>
          simp only [stands, read] at h
          cases h
        | ok others =>
          simp only [stands, read] at h
          cases h
          obtain ⟨last, split⟩ := ih read
          refine ⟨last, ?_⟩
          have kept : beforeEnd (⟨kind, String.ofList (c :: rest.take more),
              ⟨offset, offset + more + 1⟩⟩ :: others) = _ :: beforeEnd others :=
            List.takeWhile_cons_of_pos (decide_eq_true (step_ne_endOfInput stands))
          rw [kept, List.cons_append, ← split]

end Token

end Scriptlet
