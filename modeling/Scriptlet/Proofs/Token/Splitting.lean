import Mathlib.Tactic.Push
import Scriptlet.Proofs.Token.LongestMatch

/-!
# Splitting a text into tokens

How the tokens of a text lie in it (`Splits`): one behind the other, with nothing but separators
between, each with the characters of its place as its text, and none of them cut short. What stands
at a character decides how a splitting goes on there, just as it decides what the scanner does, so
that the scanner finds the only splitting of a text (`scan_iff_tokenizes`).
-/
namespace Scriptlet

/-- The characters of a text inside a span. -/
def Span.slice (span : Span) (text : List Char) : List Char :=
  (text.drop span.start).take (span.stop - span.start)

namespace Token

/-- The tokens of a text from the character at `start` on, without the end marker. -/
structure Splits (text : List Char) (start : Nat) (tokens : List Token) : Prop where
  within : ∀ token ∈ tokens,
    start ≤ token.span.start ∧ token.span.start < token.span.stop ∧ token.span.stop ≤ text.length
  ordered : tokens.Pairwise fun earlier later => earlier.span.stop ≤ later.span.start
  /-- Nothing is changed: the text of a token is what stands at its place. -/
  text_eq : ∀ token ∈ tokens, token.text.toList = token.span.slice text
  /-- Nothing is lost but separators. -/
  separated : ∀ offset c, start ≤ offset → text[offset]? = some c →
    (∀ token ∈ tokens, ¬ (token.span.start ≤ offset ∧ offset < token.span.stop)) →
      isSeparator c = true
  classified : ∀ token ∈ tokens, token.kind.Admits token.text.toList
  longest : ∀ token ∈ tokens, ∀ next, text[token.span.stop]? = some next →
    ¬ Grows token.text.toList next

/-- The tokens of a whole text: its splitting, and the marker of the end behind the last
character. -/
def Tokenizes (text : List Char) (tokens : List Token) : Prop :=
  ∃ front, tokens = front ++ [endMarker text.length] ∧ Splits text 0 front

variable {kind : Kind} {text rest : List Char} {c : Char} {start more : Nat} {token : Token}
  {tokens : List Token}

theorem drop_eq_cons (stands : text[start]? = some c) :
    text.drop start = c :: text.drop (start + 1) := by
  obtain ⟨inside, rfl⟩ := List.getElem?_eq_some_iff.mp stands
  exact List.drop_eq_getElem_cons inside

theorem slice_eq_cons (stands : text[start]? = some c) :
    Span.slice ⟨start, start + more + 1⟩ text = c :: (text.drop (start + 1)).take more := by
  have length : start + more + 1 - start = more + 1 := by omega
  rw [Span.slice, drop_eq_cons stands, length, List.take_succ_cons]

theorem slice_append {middle stop : Nat} (before : start ≤ middle) (after : middle ≤ stop) :
    Span.slice ⟨start, stop⟩ text = Span.slice ⟨start, middle⟩ text ++
      Span.slice ⟨middle, stop⟩ text := by
  have length : stop - start = (middle - start) + (stop - middle) := by omega
  have behind : start + (middle - start) = middle := by omega
  simp only [Span.slice, length, List.take_add, List.drop_drop, behind]

/-! Separators are passed over, and nothing else is. -/

theorem step_of_separator (separates : isSeparator c = true) (rest : List Char) :
    step c rest = .blank := by
  have four : c = ' ' ∨ c = '\t' ∨ c = '\n' ∨ c = '\r' := by
    simpa [isSeparator, or_assoc] using separates
  rcases four with rfl | rfl | rfl | rfl <;> rfl

theorem isSeparator_of_step (h : step c rest = .blank) : isSeparator c = true := by
  unfold step at h
  split at h
  case h_1 => cases h
  case h_2 => split at h <;> cases h
  case h_3 =>
    split at h
    · split at h <;> cases h
    split at h
    case isTrue separates => exact separates
    split at h
    · simp only [Step.quoted] at h
      split at h <;> cases h
    split at h
    · cases h
    split at h <;> cases h

theorem not_isSeparator_of_step (h : step c rest ≠ .blank) : isSeparator c = false := by
  cases separates : isSeparator c with
  | false => rfl
  | true => exact absurd (step_of_separator separates rest) h

/-- The lexeme that stands at a character lies in the text, and is as long as it can be. -/
theorem leads_of_found (stands : text[start]? = some c)
    (found : step c (text.drop (start + 1)) = .lexeme kind more) :
    start + more + 1 ≤ text.length ∧
      Leads kind (Span.slice ⟨start, start + more + 1⟩ text) (text.drop (start + more + 1)) := by
  obtain ⟨inside, after, split, rfl, leads⟩ := leads_of_step found
  have size := congrArg List.length split
  rw [List.length_drop, List.length_append] at size
  obtain ⟨before, -⟩ := List.getElem?_eq_some_iff.mp stands
  have behind : text.drop (start + inside.length + 1) = after := by
    rw [Nat.add_right_comm, ← List.drop_drop, split, List.drop_left]
  refine ⟨by omega, ?_⟩
  rw [slice_eq_cons stands, split, List.take_left, behind]
  exact leads

/-! What stands at the first character of a token. -/

/-- A token of a splitting is the lexeme that stands at its first character. -/
theorem Splits.step_eq (splits : Splits text start tokens) (member : token ∈ tokens)
    (stands : text[token.span.start]? = some c) :
    step c (text.drop (token.span.start + 1)) =
      .lexeme token.kind (token.span.stop - token.span.start - 1) := by
  obtain ⟨-, some_, inside⟩ := splits.within token member
  obtain ⟨more, size⟩ : ∃ more, token.span.stop = token.span.start + more + 1 :=
    ⟨token.span.stop - token.span.start - 1, by omega⟩
  have spelled : token.text.toList = c :: (text.drop (token.span.start + 1)).take more := by
    rw [splits.text_eq token member, ← slice_eq_cons stands, Span.slice, Span.slice, size]
  have admitted := splits.classified token member
  rw [spelled] at admitted
  have ends : ∀ next ∈ (text.drop token.span.stop).head?,
      ¬ Grows (c :: (text.drop (token.span.start + 1)).take more) next := by
    intro next head
    rw [List.head?_drop] at head
    rw [← spelled]
    exact splits.longest token member next head
  have lexeme := step_of_admits ends admitted
  have passed : text.drop token.span.stop = (text.drop (token.span.start + 1)).drop more := by
    rw [size, List.drop_drop, Nat.add_right_comm]
  rw [passed, List.take_append_drop] at lexeme
  rw [lexeme, List.length_take, List.length_drop]
  congr 1
  omega

/-- At a character that is no separator, a token begins. -/
theorem Splits.exists_first (splits : Splits text start tokens) (stands : text[start]? = some c)
    (no_separator : isSeparator c = false) :
    ∃ token later, tokens = token :: later ∧ token.span.start = start ∧
      Splits text token.span.stop later := by
  obtain ⟨token, member, before, behind⟩ : ∃ token ∈ tokens,
      token.span.start ≤ start ∧ start < token.span.stop := by
    by_contra free
    push Not at free
    have separates := splits.separated start c (Nat.le_refl _) stands fun token member inside =>
      absurd inside.2 (Nat.not_lt.mpr (free token member inside.1))
    rw [separates] at no_separator
    cases no_separator
  cases tokens with
  | nil => cases member
  | cons first later =>
    obtain ⟨first_after, first_some, -⟩ := splits.within first List.mem_cons_self
    obtain ⟨first_before, later_ordered⟩ := List.pairwise_cons.mp splits.ordered
    obtain rfl : first = token := by
      rcases List.mem_cons.mp member with same | member
      · exact same.symm
      · have := first_before token member
        omega
    refine ⟨first, later, rfl, by omega, fun token member => ?_, later_ordered,
      fun token member => splits.text_eq token (List.mem_cons_of_mem _ member),
      fun offset d after at_ free => ?_,
      fun token member => splits.classified token (List.mem_cons_of_mem _ member),
      fun token member => splits.longest token (List.mem_cons_of_mem _ member)⟩
    · have := first_before token member
      have := splits.within token (List.mem_cons_of_mem _ member)
      omega
    · refine splits.separated offset d (by omega) at_ ?_
      rintro other (_ | ⟨_, among⟩)
      · omega
      · exact free other among

/-- A token in front of those of the text behind it. -/
theorem Splits.cons (splits : Splits text token.span.stop tokens)
    (within : token.span.start < token.span.stop ∧ token.span.stop ≤ text.length)
    (text_eq : token.text.toList = token.span.slice text)
    (leads : Leads token.kind token.text.toList (text.drop token.span.stop)) :
    Splits text token.span.start (token :: tokens) where
  within := by
    rintro other (_ | ⟨_, member⟩)
    · exact ⟨Nat.le_refl _, within⟩
    · have := splits.within other member
      omega
  ordered := List.pairwise_cons.mpr ⟨fun other member => (splits.within other member).1,
    splits.ordered⟩
  text_eq := List.forall_mem_cons.mpr ⟨text_eq, splits.text_eq⟩
  separated offset c after stands free := by
    have behind := free token List.mem_cons_self
    exact splits.separated offset c (by omega) stands fun other member =>
      free other (List.mem_cons_of_mem _ member)
  classified := List.forall_mem_cons.mpr ⟨leads.admitted, splits.classified⟩
  longest := by
    refine List.forall_mem_cons.mpr ⟨fun next stands => ?_, splits.longest⟩
    exact leads.ends next (by rw [List.head?_drop]; exact stands)

/-! How a splitting goes on: at the end, at a separator, and at a lexeme. -/

theorem splits_length_iff : Splits text text.length tokens ↔ tokens = [] := by
  constructor
  · intro splits
    refine List.eq_nil_iff_forall_not_mem.mpr fun token member => ?_
    obtain ⟨after, some_, inside⟩ := splits.within token member
    omega
  · rintro rfl
    refine ⟨nofun, .nil, nofun, fun offset c after stands _ => ?_, nofun, nofun⟩
    rw [List.getElem?_eq_none after] at stands
    cases stands

theorem splits_separator_iff (stands : text[start]? = some c) (separates : isSeparator c = true) :
    Splits text start tokens ↔ Splits text (start + 1) tokens := by
  constructor
  · intro splits
    refine ⟨fun token member => ?_, splits.ordered, splits.text_eq, fun offset d after => ?_,
      splits.classified, splits.longest⟩
    · obtain ⟨after, some_, inside⟩ := splits.within token member
      have other : token.span.start ≠ start := by
        rintro rfl
        have lexeme := splits.step_eq member stands
        rw [step_of_separator separates] at lexeme
        cases lexeme
      omega
    · exact splits.separated offset d (by omega)
  · intro splits
    refine ⟨fun token member => ?_, splits.ordered, splits.text_eq,
      fun offset d after at_ free => ?_, splits.classified, splits.longest⟩
    · obtain ⟨after, some_, inside⟩ := splits.within token member
      omega
    · rcases Nat.eq_or_lt_of_le after with rfl | later
      · obtain rfl : c = d := Option.some.inj (stands.symm.trans at_)
        exact separates
      · exact splits.separated offset d later at_ free

/-- The token of a class at a place of a text. -/
def placed (kind : Kind) (span : Span) (text : List Char) : Token :=
  ⟨kind, String.ofList (span.slice text), span⟩

theorem eq_placed (text_eq : token.text.toList = token.span.slice text) :
    token = placed token.kind token.span text := by
  rw [placed, ← text_eq, String.ofList_toList]

theorem splits_lexeme_iff (stands : text[start]? = some c)
    (found : step c (text.drop (start + 1)) = .lexeme kind more) :
    Splits text start tokens ↔ ∃ later,
      Splits text (start + more + 1) later ∧
        placed kind ⟨start, start + more + 1⟩ text :: later = tokens := by
  constructor
  · intro splits
    have no_separator := not_isSeparator_of_step (fun blank => nomatch found.symm.trans blank)
    obtain ⟨token, later, rfl, rfl, behind⟩ := splits.exists_first stands no_separator
    obtain ⟨rfl, rfl⟩ :=
      Step.lexeme.inj (found.symm.trans (splits.step_eq List.mem_cons_self stands))
    obtain ⟨-, some_, -⟩ := splits.within token List.mem_cons_self
    have stop : token.span.start + (token.span.stop - token.span.start - 1) + 1 =
        token.span.stop := by omega
    rw [stop, ← eq_placed (splits.text_eq token List.mem_cons_self)]
    exact ⟨later, behind, rfl⟩
  · rintro ⟨later, behind, rfl⟩
    obtain ⟨within, leads⟩ := leads_of_found stands found
    have spelled : (placed kind ⟨start, start + more + 1⟩ text).text.toList =
        Span.slice ⟨start, start + more + 1⟩ text := String.toList_ofList
    exact Splits.cons behind ⟨Nat.lt_succ_of_le (Nat.le_add_right _ _), within⟩ spelled
      (spelled ▸ leads)

/-! The scanner. -/

/-- The scanner reads a lexeme as one token and goes on behind it. -/
theorem scanFrom_lexeme (stands : text[start]? = some c)
    (found : step c (text.drop (start + 1)) = .lexeme kind more) :
    scanFrom start 0 (text.drop start) =
      (scanFrom (start + more + 1) 0 (text.drop (start + more + 1))).map
        (placed kind ⟨start, start + more + 1⟩ text :: ·) := by
  have within := (leads_of_found stands found).1
  have enough : more ≤ (text.drop (start + 1)).length := by
    rw [List.length_drop]
    omega
  rw [drop_eq_cons stands, scanFrom, found, placed, slice_eq_cons stands]
  simp only [scanFrom_eq_drop _ _ _ enough, List.drop_drop, Nat.add_right_comm start 1]
  rfl

theorem map_eq_ok_iff {α β ε : Type} {f : α → β} {x : Except ε α} {b : β} :
    x.map f = .ok b ↔ ∃ a, x = .ok a ∧ f a = b := by
  cases x with
  | error e => simp [Except.map]
  | ok a => simp [Except.map]

/-- What the scanner reads from a character on is the splitting from there, up to the marker of the
end. The induction is on the characters that are left. -/
theorem scanFrom_iff_splits (inside : start ≤ text.length) :
    scanFrom start 0 (text.drop start) = .ok tokens ↔
      ∃ front, tokens = front ++ [endMarker text.length] ∧ Splits text start front := by
  induction size : text.length - start using Nat.strong_induction_on generalizing start tokens with
  | h size ih =>
  subst size
  rcases Nat.eq_or_lt_of_le inside with rfl | before
  · rw [List.drop_length, scanFrom]
    simp only [splits_length_iff, exists_eq_right, List.nil_append, Except.ok.injEq, eq_comm]
  obtain ⟨c, stands⟩ : ∃ c, text[start]? = some c := ⟨_, List.getElem?_eq_getElem before⟩
  cases found : step c (text.drop (start + 1)) with
  | blank =>
    rw [drop_eq_cons stands, scanFrom, found]
    simp only [splits_separator_iff stands (isSeparator_of_step found)]
    exact ih _ (by omega) before rfl
  | fault cause length =>
    rw [drop_eq_cons stands, scanFrom, found]
    refine ⟨by rintro ⟨⟩, ?_⟩
    rintro ⟨front, -, splits⟩
    have no_blank : step c (text.drop (start + 1)) ≠ .blank := by
      intro blank
      cases found.symm.trans blank
    obtain ⟨token, later, rfl, rfl, -⟩ :=
      splits.exists_first stands (not_isSeparator_of_step no_blank)
    cases found.symm.trans (splits.step_eq List.mem_cons_self stands)
  | lexeme kind more =>
    have within := (leads_of_found stands found).1
    have later : ∀ tokens, _ ↔ _ := fun tokens => @ih _ (by omega) _ tokens within rfl
    rw [scanFrom_lexeme stands found, map_eq_ok_iff]
    simp only [splits_lexeme_iff stands found, later]
    constructor
    · rintro ⟨_, ⟨front, rfl, splits⟩, rfl⟩
      exact ⟨_, rfl, front, splits, rfl⟩
    · rintro ⟨_, rfl, front, splits, rfl⟩
      exact ⟨_, ⟨front, rfl, splits⟩, rfl⟩

/-- Reading a text gives its splitting, and fails if it has none. -/
theorem scan_iff_tokenizes {source : String} :
    scan source = .ok tokens ↔ Tokenizes source.toList tokens :=
  scanFrom_iff_splits (Nat.zero_le _)

/-- A piece that does not grow is not the beginning of a longer one of any class. -/
theorem not_admits_of_leads {longer : Kind} {inside extra : List Char} {next : Char}
    (leads : Leads kind (c :: inside) (next :: extra)) :
    ¬ longer.Admits (c :: (inside ++ next :: extra)) := by
  intro admitted
  have short := step_of_admits leads.ends leads.admitted
  have alone : ∀ d ∈ ([] : List Char).head?, ¬ Grows (c :: (inside ++ next :: extra)) d := nofun
  have long := step_of_admits alone admitted
  rw [List.append_nil, short] at long
  have length := (Step.lexeme.inj long).2
  rw [List.length_append, List.length_cons] at length
  omega

/-- No token could be longer: from its first character on, no longer piece belongs to a class. -/
theorem Splits.not_admits_longer (splits : Splits text start tokens) (member : token ∈ tokens)
    {longer : Kind} {stop : Nat} (after : token.span.stop < stop) (inside : stop ≤ text.length) :
    ¬ longer.Admits (Span.slice ⟨token.span.start, stop⟩ text) := by
  obtain ⟨-, some_, -⟩ := splits.within token member
  obtain ⟨next, behind⟩ : ∃ next, text[token.span.stop]? = some next :=
    ⟨_, List.getElem?_eq_getElem (by omega)⟩
  obtain ⟨more, stop_eq⟩ : ∃ more, stop = token.span.stop + more + 1 :=
    ⟨stop - token.span.stop - 1, by omega⟩
  have grown : Span.slice ⟨token.span.start, stop⟩ text = token.text.toList ++
      next :: (text.drop (token.span.stop + 1)).take more := by
    rw [slice_append some_.le after.le, stop_eq, slice_eq_cons behind, splits.text_eq token member]
  have admitted := splits.classified token member
  obtain ⟨c, letters, spelled⟩ := List.exists_cons_of_ne_nil admitted.ne_nil
  rw [grown, spelled, List.cons_append]
  refine not_admits_of_leads ⟨spelled ▸ admitted, fun d head => ?_⟩
  obtain rfl : next = d := by simpa using head
  exact spelled ▸ splits.longest token member next behind

/-- **Lossless tokens of greatest length.** A text is read as its splitting into tokens, which is
the only one. The text of the end marker is no part of the source; the text of any other token is
what stands at its place, and no longer piece from its first character on belongs to a class. -/
theorem scan_iff_only_splitting (source : String) (tokens : List Token) :
    scan source = .ok tokens ↔
      Tokenizes source.toList tokens ∧
      (∀ others, Tokenizes source.toList others → others = tokens) ∧
      ∀ token ∈ tokens, ∀ kind stop, token.span.stop < stop → stop ≤ source.toList.length →
        ¬ Kind.Admits kind (Span.slice ⟨token.span.start, stop⟩ source.toList) := by
  constructor
  · intro scanned
    have tokenized := scan_iff_tokenizes.mp scanned
    refine ⟨tokenized, fun others also => ?_, fun token member kind stop after inside => ?_⟩
    · exact Except.ok.inj ((scan_iff_tokenizes.mpr also).symm.trans scanned)
    · obtain ⟨front, rfl, splits⟩ := tokenized
      rcases List.mem_append.mp member with among | last
      · exact splits.not_admits_longer among after inside
      · obtain rfl := List.mem_singleton.mp last
        exact absurd after (Nat.not_lt.mpr inside)
  · rintro ⟨tokenized, -⟩
    exact scan_iff_tokenizes.mpr tokenized

/-- The marker of the end has a text of its own, where nothing stands in the source. -/
theorem endMarker_not_slice : ∃ tokens, scan "" = .ok tokens ∧
    ¬ ∀ token ∈ tokens, token.text.toList = token.span.slice "".toList :=
  ⟨[endMarker 0], rfl, by decide⟩

end Token

end Scriptlet
