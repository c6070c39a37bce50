import Scriptlet.Proofs.Token.Splitting

/-!
# Where scanning fails

Why no token begins at a character is said without the scanner (`Stuck`). The scanner comes to such
a character (`Boundary`) exactly if what stands before it can be scanned on its own: a token that
went over the character would be a text literal or a logical operator, and the part of it in front
of the character alone cannot be scanned (`stuck_of_straddled`).
-/
namespace Scriptlet

namespace Token

/-- The characters of the language, outside of text literals. -/
def Belongs (c : Char) : Prop :=
  isSeparator c ∨ isQuote c ∨ c ∈ (Kind.marks ++ Kind.operators).map (·.1) ∨
    c = '&' ∨ c = '|' ∨ c.isDigit ∨ Text.isAlphabetic c

instance (c : Char) : Decidable (Belongs c) := inferInstanceAs (Decidable (_ ∨ _))

/-- Why no token begins at an offset of a text, and nothing that separates tokens stands there. -/
inductive Stuck (text : List Char) (offset : Nat) : Fault → Prop
  /-- The character is none of the language. -/
  | unrecognized {c} (stands : text[offset]? = some c) (foreign : ¬ Belongs c) :
      Stuck text offset (.unrecognized c)
  /-- A `&` or a `|` is not followed by the same character. -/
  | halfOperator {c} (stands : text[offset]? = some c) (half : c = '&' ∨ c = '|')
      (alone : text[offset + 1]? ≠ some c) : Stuck text offset (.halfOperator c)
  /-- A quote does not occur again. -/
  | unterminated {c} (stands : text[offset]? = some c) (quotes : c = '"' ∨ c = '\'')
      (unclosed : ∀ later, offset < later → text[later]? ≠ some c) :
      Stuck text offset (.unterminated c)

/-- What a fault at an offset of a text is about: the one character, or all the text from an open
quote on. -/
def Fault.place (offset finish : Nat) : Fault → Span
  | unrecognized _ | halfOperator _ => .single offset
  | unterminated _ => ⟨offset, finish⟩

/-- The offsets at which the scanner looks for the next token. -/
inductive Boundary (text : List Char) : Nat → Prop
  | first : Boundary text 0
  | blank {offset c} (before : Boundary text offset) (stands : text[offset]? = some c)
      (found : step c (text.drop (offset + 1)) = .blank) : Boundary text (offset + 1)
  | lexeme {offset c kind more} (before : Boundary text offset) (stands : text[offset]? = some c)
      (found : step c (text.drop (offset + 1)) = .lexeme kind more) :
      Boundary text (offset + more + 1)

variable {text : List Char} {cause : Fault} {c : Char} {kind : Kind} {offset stop more : Nat}

/-! The character at which no token begins. -/

theorem Stuck.lt_length (stuck : Stuck text offset cause) : offset < text.length := by
  cases stuck with
  | unrecognized stands | halfOperator stands | unterminated stands =>
    exact (List.getElem?_eq_some_iff.mp stands).1

theorem step_unrecognized (foreign : ¬ Belongs c) (rest : List Char) :
    step c rest = .fault (.unrecognized c) 1 := by
  simp only [Belongs, not_or] at foreign
  obtain ⟨no_separator, no_quote, no_sign, no_and, no_or, no_digit, no_letter⟩ := foreign
  have no_single : single? c = none := by
    cases single : single? c with
    | none => rfl
    | some kind =>
      have listed := List.mem_append_left Kind.operators (mark_of_single? single)
      exact absurd (List.mem_map_of_mem listed) no_sign
  have no_operator : beforeEquals? c = none := by
    cases operator : beforeEquals? c with
    | none => rfl
    | some kind =>
      have listed := List.mem_append_right Kind.marks (operator_of_beforeEquals? operator)
      exact absurd (List.mem_map_of_mem listed) no_sign
  simp [step, no_single, no_operator, no_and, no_or, no_separator, no_quote, no_digit, no_letter]

theorem step_halfOperator {rest : List Char} (half : c = '&' ∨ c = '|')
    (alone : rest.head? ≠ some c) : step c rest = .fault (.halfOperator c) 1 := by
  rcases half with rfl | rfl <;> simp [step, single?, beforeEquals?, alone]

theorem step_unterminated {rest : List Char} (quotes : c = '"' ∨ c = '\'') (unclosed : c ∉ rest) :
    step c rest = .fault (.unterminated c) (rest.length + 1) := by
  have all : rest.takeWhile (· ≠ c) = rest := by
    refine List.takeWhile_eq_self_iff.mpr fun d member => ?_
    exact decide_eq_true fun same => unclosed (same ▸ member)
  rw [step_of_quote quotes, Step.quoted, all, if_neg (Nat.lt_irrefl _)]

/-- Where no token begins the scanner finds the fault, and the characters that it is about. -/
theorem Stuck.found (stuck : Stuck text offset cause) : ∃ c size, text[offset]? = some c ∧
    step c (text.drop (offset + 1)) = .fault cause size ∧
    (⟨offset, offset + size⟩ : Span) = cause.place offset text.length := by
  have inside := stuck.lt_length
  cases stuck with
  | @unrecognized c stands foreign => exact ⟨c, 1, stands, step_unrecognized foreign _, rfl⟩
  | @halfOperator c stands half alone =>
    rw [← List.head?_drop] at alone
    exact ⟨c, 1, stands, step_halfOperator half alone, rfl⟩
  | @unterminated c stands quotes unclosed =>
    have no_later : c ∉ text.drop (offset + 1) := by
      intro member
      obtain ⟨i, found⟩ := List.mem_iff_getElem?.mp member
      rw [List.getElem?_drop] at found
      exact unclosed _ (by omega) found
    refine ⟨c, _, stands, step_unterminated quotes no_later, ?_⟩
    rw [Fault.place, List.length_drop]
    congr 1
    omega

/-- A character of the language begins a token or separates tokens, other than half an operator and
a quote that is not closed. -/
theorem step_ne_fault {rest : List Char} (belongs : Belongs c)
    (whole : c = '&' ∨ c = '|' → rest.head? = some c) (closed : c = '"' ∨ c = '\'' → c ∈ rest)
    (size : Nat) : step c rest ≠ .fault cause size := by
  have whole_operator (half : c = '&' ∨ c = '|') : step c rest = .lexeme .logical 1 := by
    obtain ⟨after, rfl⟩ := List.head?_eq_some_iff.mp (whole half)
    rcases half with rfl | rfl <;> rfl
  rcases belongs with separates | quotes | sign | rfl | rfl | digit | letter
  · rw [step_of_separator separates]
    rintro ⟨⟩
  · have quotes : c = '"' ∨ c = '\'' := by simpa [isQuote] using quotes
    obtain ⟨inside, after, rfl, unquoted⟩ := List.eq_append_cons_of_mem (closed quotes)
    rw [step_of_quote quotes, quoted_of_not_mem unquoted]
    rintro ⟨⟩
  · obtain ⟨⟨sign, kind⟩, listed, rfl⟩ := List.mem_map.mp sign
    rcases List.mem_append.mp listed with mark | operator
    · rw [step_of_single (single?_of_mark mark)]
      rintro ⟨⟩
    · obtain ⟨no_single, operator⟩ := beforeEquals?_of_operator operator
      rw [step, no_single, operator]
      dsimp only
      split <;> rintro ⟨⟩
  · rw [whole_operator (.inl rfl)]
    rintro ⟨⟩
  · rw [whole_operator (.inr rfl)]
    rintro ⟨⟩
  · rw [step_of_digit digit]
    rintro ⟨⟩
  · rw [step_of_alphabetic letter]
    rintro ⟨⟩

/-- The scanner finds no token only where none begins. -/
theorem stuck_of_step {size : Nat} (stands : text[offset]? = some c)
    (found : step c (text.drop (offset + 1)) = .fault cause size) :
    Stuck text offset cause := by
  have same {other : Fault} (stuck : Stuck text offset other) : Stuck text offset cause := by
    obtain ⟨d, _, stands', found', -⟩ := stuck.found
    obtain rfl : c = d := Option.some.inj (stands.symm.trans stands')
    obtain ⟨rfl, -⟩ := Step.fault.inj (found.symm.trans found')
    exact stuck
  by_contra free
  refine step_ne_fault ?_ (fun half => ?_) (fun quotes => ?_) size found
  · by_contra foreign
    exact free (same (.unrecognized stands foreign))
  · by_contra alone
    rw [List.head?_drop] at alone
    exact free (same (.halfOperator stands half alone))
  · by_contra unclosed
    refine free (same (.unterminated stands quotes fun later after again => unclosed ?_))
    refine List.mem_iff_getElem?.mpr ⟨later - (offset + 1), ?_⟩
    rw [List.getElem?_drop, ← again]
    congr 1
    omega

/-- Cutting a text off behind a character at which no token begins does not help. -/
theorem Stuck.take (stuck : Stuck text offset cause) (before : offset < stop) :
    Stuck (text.take stop) offset cause := by
  have here : (text.take stop)[offset]? = text[offset]? := List.getElem?_take_of_lt before
  have of_kept {later : Nat} {d : Char} (kept : (text.take stop)[later]? = some d) :
      text[later]? = some d := by
    rw [List.getElem?_take] at kept
    split at kept
    · exact kept
    · cases kept
  cases stuck with
  | unrecognized stands foreign => exact .unrecognized (here.trans stands) foreign
  | halfOperator stands half alone =>
    exact .halfOperator (here.trans stands) half fun again => alone (of_kept again)
  | unterminated stands quotes unclosed =>
    exact .unterminated (here.trans stands) quotes fun later after again =>
      unclosed later after (of_kept again)

/-! How far the scanner comes. -/

theorem Boundary.le_length (boundary : Boundary text offset) : offset ≤ text.length := by
  cases boundary with
  | first => exact Nat.zero_le _
  | blank _ stands _ => exact (List.getElem?_eq_some_iff.mp stands).1
  | lexeme _ stands found => exact (leads_of_found stands found).1

/-- Up to an offset that the scanner comes to, there are tokens, and it goes on from there. -/
theorem Boundary.scanFrom_eq (boundary : Boundary text offset) : ∃ front,
    scanFrom 0 0 text = (scanFrom offset 0 (text.drop offset)).map (front ++ ·) := by
  induction boundary with
  | first =>
    refine ⟨[], ?_⟩
    rw [List.drop_zero]
    cases scanFrom 0 0 text <;> rfl
  | blank before stands found ih =>
    obtain ⟨front, read⟩ := ih
    refine ⟨front, ?_⟩
    rw [read, drop_eq_cons stands, scanFrom, found]
  | @lexeme offset c kind more before stands found ih =>
    obtain ⟨front, read⟩ := ih
    refine ⟨front ++ [placed kind ⟨offset, offset + more + 1⟩ text], ?_⟩
    rw [read, scanFrom_lexeme stands found]
    cases scanFrom (offset + more + 1) 0 (text.drop (offset + more + 1)) with
    | error e => rfl
    | ok tokens => simp [Except.map]

/-- The scanner comes to the same offsets in the text up to some offset, whatever follows. -/
theorem Boundary.take (boundary : Boundary text offset) (before : offset ≤ stop) :
    Boundary (text.take stop) offset := by
  induction boundary with
  | first => exact .first
  | @blank offset c _ stands found ih =>
    refine .blank (ih (by omega)) ?_ (step_of_separator (isSeparator_of_step found) _)
    rw [List.getElem?_take_of_lt (by omega), stands]
  | @lexeme offset c kind more _ stands found ih =>
    have kept : (text.take stop)[offset]? = some c := by
      rw [List.getElem?_take_of_lt (by omega), stands]
    have earlier : Boundary (text.take stop) offset := ih (by omega)
    refine earlier.lexeme kept (?_ : _ = Step.lexeme kind _)
    obtain ⟨inside, after, split, rfl, leads⟩ := leads_of_step found
    have cut : (text.take stop).drop (offset + 1) =
        inside ++ after.take (stop - (offset + 1) - inside.length) := by
      rw [List.drop_take, split, List.take_append, List.take_of_length_le (by omega)]
    rw [cut]
    refine step_of_admits (fun next head => leads.ends next ?_) leads.admitted
    rw [List.head?_take] at head
    split at head
    · cases head
    · exact head

/-- What stands before an offset that the scanner comes to can be scanned on its own. -/
theorem Boundary.scans (boundary : Boundary text offset) :
    ∃ tokens, scanFrom 0 0 (text.take offset) = .ok tokens := by
  obtain ⟨front, read⟩ := (boundary.take (Nat.le_refl _)).scanFrom_eq
  refine ⟨front ++ [endMarker offset], ?_⟩
  rw [read, List.drop_of_length_le (List.length_take_le _ _)]
  rfl

/-- Scanning ends at the first character at which no token begins. -/
theorem Boundary.fails (boundary : Boundary text offset) (stuck : Stuck text offset cause) :
    scanFrom 0 0 text = .error ⟨cause, cause.place offset text.length⟩ := by
  obtain ⟨front, read⟩ := boundary.scanFrom_eq
  obtain ⟨c, size, stands, found, place⟩ := stuck.found
  rw [read, drop_eq_cons stands, scanFrom, found, ← place]
  rfl

/-- If scanning fails, it came to a character at which no token begins. The induction is on the
characters that are left. -/
theorem Boundary.exists_stuck {fault : Located Fault} (boundary : Boundary text offset)
    (failed : scanFrom offset 0 (text.drop offset) = .error fault) :
    ∃ place cause, Boundary text place ∧ Stuck text place cause := by
  induction size : text.length - offset using Nat.strong_induction_on generalizing offset fault with
  | h size ih =>
  subst size
  rcases Nat.eq_or_lt_of_le boundary.le_length with rfl | before
  · rw [List.drop_length] at failed
    cases failed
  obtain ⟨c, stands⟩ : ∃ c, text[offset]? = some c := ⟨_, List.getElem?_eq_getElem before⟩
  cases found : step c (text.drop (offset + 1)) with
  | blank =>
    rw [drop_eq_cons stands, scanFrom, found] at failed
    exact ih _ (by omega) (boundary.blank stands found) failed rfl
  | fault cause size => exact ⟨offset, cause, boundary, stuck_of_step stands found⟩
  | lexeme kind more =>
    have later := boundary.lexeme stands found
    rw [scanFrom_lexeme stands found] at failed
    cases read : scanFrom (offset + more + 1) 0 (text.drop (offset + more + 1)) with
    | error fault' =>
      have := later.le_length
      exact ih _ (by omega) later read rfl
    | ok tokens =>
      rw [read] at failed
      cases failed

/-! No token goes over a character at which none begins, if what stands before it can be scanned. -/

theorem Stuck.not_continues (stuck : Stuck text offset cause) (stands : text[offset]? = some c) :
    c.isDigit = false ∧ Text.isAlphabetic c = false ∧ c ≠ '=' := by
  have same {d : Char} (stands' : text[offset]? = some d) : c = d :=
    Option.some.inj (stands.symm.trans stands')
  cases stuck with
  | unrecognized stands' foreign =>
    obtain rfl := same stands'
    simp only [Belongs, not_or, Bool.not_eq_true] at foreign
    obtain ⟨-, -, no_sign, -, -, no_digit, no_letter⟩ := foreign
    refine ⟨no_digit, no_letter, ?_⟩
    rintro rfl
    exact no_sign (by decide)
  | halfOperator stands' half _ =>
    obtain rfl := same stands'
    rcases half with rfl | rfl <;> exact ⟨rfl, rfl, by decide⟩
  | unterminated stands' quotes _ =>
    obtain rfl := same stands'
    rcases quotes with rfl | rfl <;> exact ⟨rfl, rfl, by decide⟩

/-- What stands behind the first character of a token: more of a number, a word or a comparison, the
second half of a logical operator, or the rest of a text literal. -/
theorem Kind.Admits.behind_first {inside : List Char} {d : Char}
    (admitted : kind.Admits (c :: inside)) (member : d ∈ inside) :
    (d.isDigit ∨ Text.isAlphabetic d ∨ d = '=') ∨ ((c = '&' ∨ c = '|') ∧ inside = [c]) ∨
      ((c = '"' ∨ c = '\'') ∧ ∃ inner, inside = inner ++ [c] ∧ c ∉ inner) := by
  generalize whole : c :: inside = spelled at admitted
  cases admitted with
  | mark | operator =>
    cases whole
    cases member
  | comparison =>
    cases whole
    exact .inl (.inr (.inr (List.mem_singleton.mp member)))
  | logical half =>
    cases whole
    exact .inr (.inl ⟨half, rfl⟩)
  | text quotes unquoted =>
    cases whole
    exact .inr (.inr ⟨quotes, _, rfl, unquoted⟩)
  | number _ all => exact .inl (.inl (all d (whole ▸ List.mem_cons_of_mem c member)))
  | keyword listed =>
    have all := Kind.alphabetic_of_reserved listed
    exact .inl (.inr (.inl (all d (whole ▸ List.mem_cons_of_mem c member))))
  | name _ all _ => exact .inl (.inr (.inl (all d (whole ▸ List.mem_cons_of_mem c member))))

/-- A text literal is not closed in a part of the text that ends before its closing quote. -/
theorem unterminated_of_cut {inner : List Char} (here : (text.take stop)[offset]? = some c)
    (quotes : c = '"' ∨ c = '\'')
    (inside : ∀ i < inner.length, text[offset + 1 + i]? = inner[i]?)
    (cut : stop ≤ offset + 1 + inner.length) (unquoted : c ∉ inner) :
    Stuck (text.take stop) offset (.unterminated c) := by
  refine .unterminated here quotes fun later behind again => unquoted ?_
  obtain ⟨i, rfl⟩ := Nat.exists_eq_add_of_lt behind
  have earlier := (List.getElem?_eq_some_iff.mp again).1
  rw [List.length_take] at earlier
  have within_inner : i < inner.length := by omega
  rw [List.getElem?_take_of_lt (by omega), Nat.add_right_comm, inside i within_inner] at again
  exact List.mem_of_getElem? again

/-- A token that goes over a character at which none begins is cut short by what stands before that
character: an operator loses its second half, or a text literal its closing quote. -/
theorem stuck_of_straddled {other : Fault} (stands : text[offset]? = some c)
    (found : step c (text.drop (offset + 1)) = .lexeme kind more)
    (after : offset < stop) (before : stop < offset + more + 1) (stuck : Stuck text stop other) :
    ∃ cause, Stuck (text.take stop) offset cause := by
  obtain ⟨inside, rest, split, rfl, leads⟩ := leads_of_step found
  have here : (text.take stop)[offset]? = some c := by
    rw [List.getElem?_take_of_lt after, stands]
  have at_inside {i : Nat} (short : i < inside.length) : text[offset + 1 + i]? = inside[i]? := by
    rw [← List.getElem?_drop, split, List.getElem?_append_left short]
  obtain ⟨i, rfl⟩ := Nat.exists_eq_add_of_lt after
  have short : i < inside.length := by omega
  obtain ⟨d, at_stop⟩ : ∃ d, inside[i]? = some d := ⟨_, List.getElem?_eq_getElem short⟩
  have member := List.mem_of_getElem? at_stop
  rw [← at_inside short, Nat.add_right_comm] at at_stop
  obtain ⟨no_digit, no_letter, no_equals⟩ := stuck.not_continues at_stop
  rcases leads.admitted.behind_first member with
    continues | ⟨half, rfl⟩ | ⟨quotes, inner, rfl, unquoted⟩
  · simp [no_digit, no_letter, no_equals] at continues
  · have ended : (text.take (offset + i + 1)).length ≤ offset + 1 := by
      rw [List.length_take]
      simp only [List.length_singleton] at short
      omega
    refine ⟨.halfOperator c, .halfOperator here half ?_⟩
    rw [List.getElem?_eq_none ended]
    exact nofun
  · rw [List.length_append, List.length_singleton] at short
    refine ⟨.unterminated c, unterminated_of_cut here quotes (fun j within_inner => ?_) ?_ unquoted⟩
    · have within_inside : j < (inner ++ [c]).length := by
        rw [List.length_append]
        omega
      rw [at_inside within_inside, List.getElem?_append_left within_inner]
    · omega

/-- The scanner comes to a character at which no token begins, if what stands before it can be
scanned on its own. The induction is on how far behind the scanner still is. -/
theorem Stuck.boundary_of {tokens : List Token} (stuck : Stuck text stop cause)
    (scanned : scanFrom 0 0 (text.take stop) = .ok tokens) (boundary : Boundary text offset)
    (before : offset ≤ stop) : Boundary text stop := by
  have no_fault {earlier : Nat} {fault : Fault} (boundary : Boundary text earlier)
      (before : earlier ≤ stop) (cut : Stuck (text.take stop) earlier fault) : False := by
    have failed := (boundary.take before).fails cut
    rw [scanned] at failed
    cases failed
  induction distance : stop - offset using Nat.strong_induction_on generalizing offset with
  | h distance ih =>
  subst distance
  rcases Nat.eq_or_lt_of_le before with rfl | earlier
  · exact boundary
  have inside : offset < text.length := by
    have := stuck.lt_length
    omega
  obtain ⟨c, stands⟩ : ∃ c, text[offset]? = some c := ⟨_, List.getElem?_eq_getElem inside⟩
  cases found : step c (text.drop (offset + 1)) with
  | blank => exact ih _ (by omega) (boundary.blank stands found) earlier rfl
  | fault cause size =>
    have cut := (stuck_of_step stands found).take earlier
    exact (no_fault boundary before cut).elim
  | lexeme kind more =>
    rcases Nat.lt_or_ge stop (offset + more + 1) with straddled | passed
    · obtain ⟨fault, cut⟩ := stuck_of_straddled stands found earlier straddled stuck
      exact (no_fault boundary before cut).elim
    · exact ih _ (by omega) (boundary.lexeme stands found) passed rfl

/-- Scanning a source stops for a reason at an offset: what stands before the offset can be scanned
on its own, and no token begins there. -/
structure FailsAt (source : String) (offset : Nat) (cause : Fault) : Prop where
  scans : ∃ tokens, scan (String.ofList (source.toList.take offset)) = .ok tokens
  stuck : Stuck source.toList offset cause

variable {source : String}

theorem failsAt_iff : FailsAt source offset cause ↔
    Boundary source.toList offset ∧ Stuck source.toList offset cause := by
  constructor
  · rintro ⟨⟨tokens, scanned⟩, stuck⟩
    rw [scan, String.toList_ofList] at scanned
    exact ⟨stuck.boundary_of scanned .first (Nat.zero_le _), stuck⟩
  · rintro ⟨boundary, stuck⟩
    refine ⟨?_, stuck⟩
    rw [scan, String.toList_ofList]
    exact boundary.scans

theorem FailsAt.scan_eq (fails : FailsAt source offset cause) :
    scan source = .error ⟨cause, cause.place offset source.length⟩ := by
  obtain ⟨boundary, stuck⟩ := failsAt_iff.mp fails
  rw [scan, ← String.length_toList]
  exact boundary.fails stuck

theorem FailsAt.unique {other : Nat} {cause' : Fault} (fails : FailsAt source offset cause)
    (fails' : FailsAt source other cause') : other = offset ∧ cause' = cause := by
  have same := Except.error.inj (fails'.scan_eq.symm.trans fails.scan_eq)
  obtain ⟨rfl, place⟩ := Located.mk.inj same
  refine ⟨?_, rfl⟩
  cases cause' <;> exact congrArg Span.start place

/-- How many characters of a text decide on a fault at an offset, other than an open quote: those
before, the character itself, and the one that would complete half an operator. -/
def Fault.seen (offset : Nat) : Fault → Nat
  | halfOperator _ => offset + 2
  | unrecognized _ | unterminated _ => offset + 1

theorem FailsAt.of_alike {other : String} (fails : FailsAt source offset cause)
    (no_quote : ∀ quote, cause ≠ .unterminated quote)
    (alike : other.toList.take (cause.seen offset) = source.toList.take (cause.seen offset)) :
    FailsAt other offset cause := by
  have same {i : Nat} (near : i < cause.seen offset) : other.toList[i]? = source.toList[i]? := by
    rw [← List.getElem?_take_of_lt near, alike, List.getElem?_take_of_lt near]
  obtain ⟨scans, stuck⟩ := fails
  have before : other.toList.take offset = source.toList.take offset := by
    have near : offset = min offset (cause.seen offset) := by
      cases cause <;> simp only [Fault.seen] <;> omega
    rw [near, ← List.take_take, alike, List.take_take]
  refine ⟨before ▸ scans, ?_⟩
  cases stuck with
  | unrecognized stands foreign =>
    exact .unrecognized ((same (Nat.lt_succ_self _)).trans stands) foreign
  | halfOperator stands half alone =>
    refine .halfOperator ((same (by simp only [Fault.seen]; omega)).trans stands) half ?_
    rwa [same (by simp only [Fault.seen]; omega)]
  | unterminated => exact absurd rfl (no_quote _)

/-- **Lexical errors, exactly when and where.** A source fails to scan if and only if, behind
characters that can be scanned on their own, it has one that is none of the language, half an
operator or a quote that does not occur again. There is only one such character; the error is about
it alone, and in the case of the quote about all characters from it on. Unless it is a quote, every
source fails with the same error that begins with the same characters up to this one, and up to the
next one in the case of half an operator. -/
theorem scan_error_iff (source : String) :
    ((∃ fault, scan source = .error fault) ↔
      ∃ offset < source.length, ∃ cause, FailsAt source offset cause) ∧
    ∀ offset cause, FailsAt source offset cause →
      (∀ offset' cause', FailsAt source offset' cause' → offset' = offset) ∧
      scan source = .error ⟨cause, cause.place offset source.length⟩ ∧
      (Fault.diagnostic ⟨cause, cause.place offset source.length⟩).stage = .lexical ∧
      ((∀ quote, cause ≠ .unterminated quote) →
        ∀ other : String,
          other.toList.take (cause.seen offset) = source.toList.take (cause.seen offset) →
          scan other = .error ⟨cause, cause.place offset source.length⟩) := by
  refine ⟨⟨?_, ?_⟩, fun offset cause fails => ⟨?_, fails.scan_eq, rfl, ?_⟩⟩
  · rintro ⟨fault, failed⟩
    have begins : Boundary source.toList 0 := .first
    obtain ⟨offset, cause, boundary, stuck⟩ := begins.exists_stuck (by rwa [List.drop_zero])
    have inside := stuck.lt_length
    rw [String.length_toList] at inside
    exact ⟨offset, inside, cause, failsAt_iff.mpr ⟨boundary, stuck⟩⟩
  · rintro ⟨offset, -, cause, fails⟩
    exact ⟨_, fails.scan_eq⟩
  · intro offset' cause' fails'
    exact (fails.unique fails').1
  · intro no_quote other alike
    rw [(fails.of_alike no_quote alike).scan_eq]
    cases cause with
    | unrecognized | halfOperator => rfl
    | unterminated quote => exact absurd rfl (no_quote quote)

/-- A character inside a text literal does no harm. -/
theorem scan_error_behind_text :
    FailsAt "'@' @" 4 (.unrecognized '@') ∧
      scan "'@' @" = .error ⟨.unrecognized '@', ⟨4, 5⟩⟩ ∧
      scan "'@' @'" = .error ⟨.unrecognized '@', ⟨4, 5⟩⟩ := by
  have fails : FailsAt "'@' @" 4 (.unrecognized '@') :=
    ⟨⟨_, rfl⟩, .unrecognized rfl (by decide)⟩
  obtain ⟨-, failed, -, alike⟩ := (scan_error_iff "'@' @").2 4 _ fails
  exact ⟨fails, failed, alike nofun "'@' @'" rfl⟩

end Token

end Scriptlet
