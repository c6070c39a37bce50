import Scriptlet.Proofs.Token.Lexeme
import Scriptlet.Proofs.Token.Splitting

/-!
# The tokens of texts with blanks between

A blank belongs to no token and no lexeme grows by one, so that texts with a blank between do not
meet: the tokens of the first stay as they are, whatever follows, and behind the blank the second is
read as on its own, only further on (`scan_append_blank`). Tokens that are taken apart and put
together again with blanks between are the same tokens (`scan_compositional`).
-/
namespace Scriptlet

/-- The same cause after `amount` more characters were put in front of the text. -/
def Located.shift {α : Type} (amount : Nat) (fault : Located α) : Located α :=
  { fault with span := fault.span.shift amount }

namespace Token

/-- The same token after `amount` more characters were put in front of the text. -/
def shift (amount : Nat) (token : Token) : Token := { token with span := token.span.shift amount }

section
variable {text rest : List Char} {c w : Char} {kind : Kind} {offset pending more : Nat}
  {tokens : List Token}

theorem not_grows_separator (separates : isSeparator w = true) : ¬ Grows text w := by
  have four : w = ' ' ∨ w = '\t' ∨ w = '\n' ∨ w = '\r' := by
    simpa [isSeparator, or_assoc] using separates
  intro grows
  cases grows with
  | digit _ more => rcases four with rfl | rfl | rfl | rfl <;> exact absurd more (by decide)
  | letter _ more => rcases four with rfl | rfl | rfl | rfl <;> exact absurd more (by decide)
  | equals _ => exact absurd separates (by decide)

/-- The marker behind the last token is the only one. -/
theorem Splits.beforeEnd_eq {start : Nat} {front : List Token} (splits : Splits text start front)
    (last : Token) (ends : last.kind = .endOfInput) : beforeEnd (front ++ [last]) = front := by
  unfold beforeEnd
  rw [List.takeWhile_append_of_pos fun token member =>
    decide_eq_true (splits.classified token member).ne_endOfInput]
  simp [ends]

/-- Where a text stands has no influence on how it is read. -/
theorem scanFrom_add (text : List Char) (offset pending amount : Nat) :
    scanFrom (offset + amount) pending text =
      ((scanFrom offset pending text).map (List.map (shift amount))).mapError
        (Located.shift amount) := by
  induction text generalizing offset pending with
  | nil => rfl
  | cons c rest ih =>
    have next : offset + amount + 1 = offset + 1 + amount := by omega
    cases pending with
    | succ pending => rw [scanFrom, scanFrom, next, ih]
    | zero =>
      rw [scanFrom, scanFrom]
      cases step c rest with
      | blank =>
        simp only [next]
        exact ih (offset + 1) 0
      | fault cause size =>
        simp only [Except.map, Except.mapError, Located.shift, Span.shift,
          Nat.add_right_comm offset amount]
      | lexeme kind more =>
        simp only [next, ih]
        cases scanFrom (offset + 1) more rest with
        | error fault => rfl
        | ok tokens =>
          have stop : offset + amount + more + 1 = offset + more + 1 + amount := by omega
          simp only [Except.map, Except.mapError, bind, Except.bind, pure, Except.pure, shift,
            Span.shift, List.map_cons, stop]

/-- A lexeme stays what it is when a blank and more text are put behind the text. -/
theorem step_append_blank (separates : isSeparator w = true)
    (found : step c text = .lexeme kind more) (rest : List Char) :
    more ≤ text.length ∧ step c (text ++ w :: rest) = .lexeme kind more := by
  obtain ⟨inside, after, rfl, rfl, leads⟩ := leads_of_step found
  refine ⟨by simp, ?_⟩
  rw [List.append_assoc]
  refine step_of_admits (fun next head => ?_) leads.admitted
  cases after with
  | nil =>
    obtain rfl : w = next := by simpa using head
    exact not_grows_separator separates
  | cons d others => exact leads.ends next head

/-- Behind a text that is read, a blank and more text are read as they are there. -/
theorem scanFrom_append_blank (separates : isSeparator w = true) (rest : List Char)
    (inside : pending ≤ text.length) (scanned : scanFrom offset pending text = .ok tokens) :
    scanFrom offset pending (text ++ w :: rest) =
      (scanFrom (offset + text.length + 1) 0 rest).map (beforeEnd tokens ++ ·) := by
  induction text generalizing offset pending tokens with
  | nil =>
    obtain rfl : pending = 0 := by simpa using inside
    cases scanned
    have blank := step_of_separator separates rest
    have empty : beforeEnd [endMarker offset] = [] := rfl
    rw [List.nil_append, scanFrom, blank, empty]
    cases scanFrom (offset + 1) 0 rest <;> rfl
  | cons c text ih =>
    have behind : offset + (c :: text).length + 1 = offset + 1 + text.length + 1 := by
      rw [List.length_cons]
      omega
    rw [behind, List.cons_append]
    cases pending with
    | succ pending =>
      rw [scanFrom] at scanned ⊢
      exact ih (Nat.le_of_succ_le_succ inside) scanned
    | zero =>
      rw [scanFrom] at scanned ⊢
      cases found : step c text with
      | blank =>
        rw [step_of_separator (isSeparator_of_step found)]
        rw [found] at scanned
        exact ih (Nat.zero_le _) scanned
      | fault cause size =>
        rw [found] at scanned
        cases scanned
      | lexeme kind more =>
        obtain ⟨within, found'⟩ := step_append_blank separates found rest
        cases read : scanFrom (offset + 1) more text with
        | error fault =>
          simp only [found, read] at scanned
          cases scanned
        | ok others =>
          simp only [found, read] at scanned
          cases scanned
          simp only [found', ih within read, List.take_append_of_le_length within]
          have kept : beforeEnd (⟨kind, String.ofList (c :: text.take more),
              ⟨offset, offset + more + 1⟩⟩ :: others) = _ :: beforeEnd others :=
            List.takeWhile_cons_of_pos (decide_eq_true (step_ne_endOfInput found))
          rw [kept]
          cases scanFrom (offset + 1 + text.length + 1) 0 rest <;> rfl

end

/-- The tokens of a text, a blank and another text: those of the first, and those of the second
further on. Where the second fails, so does the whole, for the same cause further on. -/
theorem scan_append_blank {first : String} {tokens : List Token} (scanned : scan first = .ok tokens)
    {w : Char} (separates : isSeparator w = true) (second : String) :
    scan (first ++ w.toString ++ second) =
      ((scan second).map fun others =>
        beforeEnd tokens ++ others.map (shift (first.length + 1))).mapError
          (Located.shift (first.length + 1)) := by
  have text : (first ++ w.toString ++ second).toList = first.toList ++ w :: second.toList := by
    simp
  have place : 0 + first.toList.length + 1 = 0 + (first.length + 1) := by
    rw [String.length_toList, Nat.add_assoc]
  rw [scan, scan, text, scanFrom_append_blank separates _ (Nat.zero_le _) scanned, place,
    scanFrom_add]
  cases scanFrom 0 0 second.toList <;> rfl

/-- The tokens of two lines: those of the first, and those of the second further on. -/
theorem scan_join {first second : String} {tokens others : List Token}
    (scanned : scan first = .ok tokens) (scanned' : scan second = .ok others) :
    ∃ joined, scan (first ++ "\n" ++ second) = .ok joined ∧
      beforeEnd joined = beforeEnd tokens ++ (beforeEnd others).map (shift (first.length + 1)) := by
  have joined := scan_append_blank scanned (w := '\n') rfl second
  rw [scanned'] at joined
  refine ⟨_, joined, ?_⟩
  dsimp only
  rw [beforeEnd, beforeEnd, List.takeWhile_append_of_pos fun token => List.mem_takeWhile_imp,
    List.takeWhile_map]
  rfl

/-! Tokens apart. -/

/-- Texts put together with blanks between them, at least one in each place. -/
inductive Spaced : List String → List Char → Prop
  | nil : Spaced [] []
  | last (text : String) : Spaced [text] text.toList
  | cons {text next : String} {others : List String} {blanks rest : List Char} (some_ : blanks ≠ [])
      (all : ∀ c ∈ blanks, isSeparator c = true) (later : Spaced (next :: others) rest) :
      Spaced (text :: next :: others) (text.toList ++ (blanks ++ rest))

section
variable {text rest : List Char} {kind : Kind}

/-- A text of a class is read as one lexeme of it, if it does not grow. -/
theorem scans_of_admits (admitted : kind.Admits text)
    (ends : ∀ next ∈ rest.head?, ¬ Grows text next) :
    Scans text [⟨kind, String.ofList text⟩] rest := by
  obtain ⟨c, inside, rfl⟩ := List.exists_cons_of_ne_nil admitted.ne_nil
  exact scans_lexeme (step_of_admits ends admitted)

theorem scans_blanks {blanks : List Char} (all : ∀ c ∈ blanks, isSeparator c = true) :
    Scans blanks [] rest := by
  induction blanks with
  | nil => exact scans_nil
  | cons c others ih =>
    rw [List.forall_mem_cons] at all
    exact (scans_blank (step_of_separator all.1 _)).append (ih all.2)

/-- Lexemes with blanks between are read as they are, whatever classes meet. -/
theorem scans_spaced {tokens : List Token}
    (admitted : ∀ token ∈ tokens, token.kind.Admits token.text.toList)
    (spaced : Spaced (tokens.map (·.text)) text) : Scans text (lexemes tokens) [] := by
  have alone (token : Token) (member : token ∈ tokens) {rest : List Char}
      (ends : ∀ next ∈ rest.head?, ¬ Grows token.text.toList next) :
      Scans token.text.toList [token.lexeme] rest := by
    have read := scans_of_admits (admitted token member) ends
    rwa [String.ofList_toList] at read
  generalize texts : tokens.map (·.text) = pieces at spaced
  induction spaced generalizing tokens with
  | nil =>
    rw [List.map_eq_nil_iff.mp texts]
    exact scans_nil
  | last _ =>
    obtain ⟨token, later, rfl, rfl, none_⟩ := List.map_eq_cons_iff.mp texts
    rw [List.map_eq_nil_iff.mp none_]
    exact alone token List.mem_cons_self nofun
  | @cons _ _ _ blanks rest some_ all spaced ih =>
    obtain ⟨token, later, rfl, rfl, behind⟩ := List.map_eq_cons_iff.mp texts
    have others : Scans rest (lexemes later) [] :=
      ih (fun token member => admitted token (List.mem_cons_of_mem _ member))
        (fun token member => alone token (List.mem_cons_of_mem _ member)) behind
    have first : Scans token.text.toList [token.lexeme] (blanks ++ rest ++ []) := by
      refine alone token List.mem_cons_self fun next head => ?_
      obtain ⟨blank, more, rfl⟩ := List.exists_cons_of_ne_nil some_
      obtain rfl : blank = next := by simpa using head
      exact not_grows_separator (all blank List.mem_cons_self)
    exact first.append ((scans_blanks all).append others)

end

/-- **Scanning is compositional at blanks.** Behind a text that scans, a blank and a second text
are scanned to the tokens of the second, further on by the characters before, or fail for the same
cause, further on. So what follows a text has no influence on its tokens, nor has what comes before
on those of the second. And tokens put together with any blanks between are read as tokens of the
same classes and texts. -/
theorem scan_compositional {first : String} {tokens : List Token}
    (scanned : scan first = .ok tokens) :
    (∀ w, isSeparator w = true → ∀ second : String,
      scan (first ++ w.toString ++ second) =
        ((scan second).map fun others =>
          beforeEnd tokens ++ others.map (shift (first.length + 1))).mapError
            (Located.shift (first.length + 1))) ∧
    ∀ text : String, Spaced ((beforeEnd tokens).map (·.text)) text.toList →
      ∃ others, scan text = .ok others ∧ lexemes others = lexemes tokens := by
  refine ⟨fun w separates second => scan_append_blank scanned separates second, ?_⟩
  intro text spaced
  obtain ⟨front, rfl, splits⟩ := scan_iff_tokenizes.mp scanned
  rw [splits.beforeEnd_eq _ rfl] at spaced
  have read := scans_spaced splits.classified spaced 0 [endMarker (0 + text.toList.length)] rfl
  rw [List.append_nil] at read
  obtain ⟨others, scanned', same⟩ := read
  refine ⟨_, scanned', ?_⟩
  rw [lexemes_append, lexemes_append, same]
  rfl

/-- A reserved word in quotes stays a text, and half an operator behind the blank fails where it
stands. Without the blanks, `fn` and `f` would be one word. -/
theorem scan_compositional_words :
    ∃ tokens, scan "fn f 'let'" = .ok tokens ∧
      scan "fn f 'let'\t1 & 2" = .error ⟨.halfOperator '&', ⟨13, 14⟩⟩ ∧
      ∃ others, scan "fn\n\r f\t'let'" = .ok others ∧ lexemes others = lexemes tokens := by
  obtain ⟨tokens, scanned⟩ : ∃ tokens, scan "fn f 'let'" = .ok tokens := ⟨_, rfl⟩
  have pieces : (beforeEnd tokens).map (·.text) = ["fn", "f", "'let'"] := by
    obtain rfl := Except.ok.inj (scanned.symm.trans (rfl : scan "fn f 'let'" = .ok _))
    rfl
  have half : scan "1 & 2" = .error ⟨.halfOperator '&', ⟨2, 3⟩⟩ := rfl
  obtain ⟨behind, apart⟩ := scan_compositional scanned
  refine ⟨tokens, scanned, ?_, apart "fn\n\r f\t'let'" ?_⟩
  · have failed := behind '\t' rfl "1 & 2"
    rw [half] at failed
    exact failed
  · have words : Spaced ["f", "'let'"] "f\t'let'".toList :=
      @Spaced.cons _ _ _ ['\t'] _ (by decide) (List.all_eq_true.mp (by decide)) (.last "'let'")
    rw [pieces]
    exact @Spaced.cons _ _ _ ['\n', '\r', ' '] _ (by decide) (List.all_eq_true.mp (by decide)) words

end Token

end Scriptlet
