import Scriptlet.Proofs.Syntax.Walk.Safety

/-!
# The first end marker

What stands behind the first end marker has no influence on what is parsed: a cursor is the same
with it and without it, and a walk, which has the tokens behind the marker before it, neither looks
at them nor comes to another result. An end marker that is missing makes no difference either,
wherever the walk puts one: it stands where the cursor takes the end to be (`parse_marked`).
-/
namespace Scriptlet

namespace Syntax

variable {ts junk : List Token} {marker : Token}

/-- Where a missing end marker is taken to stand: behind the last token, if there is one. -/
def missingEnd (ts : List Token) : Nat := (ts.getLast?.map (·.span.stop)).getD 0

theorem ofTokens_marked (plain : ∀ token ∈ ts, token.kind ≠ .endOfInput)
    (marks : marker.kind = .endOfInput) (junk : List Token) :
    Cursor.ofTokens (ts ++ marker :: junk) = ⟨none, ts, marker.span⟩ := by
  have front : (ts ++ marker :: junk).takeWhile (!Cursor.isMarker ·) = ts := by
    rw [List.takeWhile_append_of_pos (by simpa [Cursor.isMarker] using plain)]
    simp [Cursor.isMarker, marks]
  have first : (ts ++ marker :: junk).find? Cursor.isMarker = some marker := by
    rw [List.find?_append, List.find?_eq_none.mpr (by simpa [Cursor.isMarker] using plain)]
    simp [Cursor.isMarker, marks]
  simp only [Cursor.ofTokens, Cursor.finishOf, front, first]

theorem ofTokens_unmarked (plain : ∀ token ∈ ts, token.kind ≠ .endOfInput) :
    Cursor.ofTokens ts = ⟨none, ts, .empty (missingEnd ts)⟩ := by
  have front : ts.takeWhile (!Cursor.isMarker ·) = ts :=
    List.takeWhile_eq_self_iff.mpr (by simpa [Cursor.isMarker] using plain)
  have none : ts.find? Cursor.isMarker = none :=
    List.find?_eq_none.mpr (by simpa [Cursor.isMarker] using plain)
  simp only [Cursor.ofTokens, Cursor.finishOf, front, none, missingEnd]
  cases ts.getLast? <;> rfl

theorem firstMarker_of_rest {tokens : List Token} (rest : (Cursor.ofTokens tokens).rest = ts) :
    firstMarker tokens = ts.length := by
  obtain ⟨t, same, front, -⟩ := exists_layout tokens
  rw [Walk.firstMarker_eq same, front, rest]

open Walk

/-- With enough rounds a walk ends as the parser does, and has kept to the first end marker. -/
theorem walk_ends {tokens : List Token} {limit : Nat} (enough : firstMarker tokens < limit) :
    (walk limit tokens).1 = (parse tokens).mapError .fault ∧ Safe tokens (walk limit tokens) := by
  obtain ⟨t, same, front, finish⟩ := exists_layout tokens
  have stands : Stands t (.ofTokens tokens) (.ofTokens tokens) :=
    ⟨⟨same.symm, Nat.zero_le _, nofun⟩, front.symm, rfl, finish.symm⟩
  have met : Meets t 0 _ (walk limit tokens) (Parse.program (.ofTokens tokens)) :=
    follows_program (firstMarker_eq same ▸ enough) _ (Nat.le_of_eq (congrArg _ front.symm)) _ stands
  refine ⟨?_, met.safe same⟩
  rw [parse, StateT.run]
  generalize walk limit tokens = walked at met
  generalize Parse.program (.ofTokens tokens) = read at met
  cases met <;> rfl

/-- **Nothing behind the first end marker matters, and neither does one that is missing.** Parsing
gives the same program with the same spans, or the same fault, and so does a walk that has the
tokens behind the marker before it. It looks at none of them. -/
theorem parse_marked (ts junk : List Token) (marker : Token)
    (plain : ∀ token ∈ ts, token.kind ≠ .endOfInput) (marks : marker.kind = .endOfInput) :
    parse (ts ++ marker :: junk) = parse (ts ++ [marker]) ∧
      (∀ text, parse ts = parse (ts ++ [⟨.endOfInput, text, .empty (missingEnd ts)⟩])) ∧
      ∀ limit, ts.length < limit →
        (walk limit (ts ++ marker :: junk)).1 = (walk limit (ts ++ [marker])).1 ∧
        (∀ current index,
          .lookup current index ∈ (walk limit (ts ++ marker :: junk)).2.trace →
            index ≤ ts.length) ∧
        ∀ text, (walk limit ts).1 =
          (walk limit (ts ++ [⟨.endOfInput, text, .empty (missingEnd ts)⟩])).1 := by
  have marked := ofTokens_marked plain marks junk
  have alone := ofTokens_marked plain marks []
  have missing := ofTokens_unmarked plain
  have supplied (text : String) :
      Cursor.ofTokens (ts ++ [⟨.endOfInput, text, .empty (missingEnd ts)⟩]) =
        ⟨none, ts, .empty (missingEnd ts)⟩ := ofTokens_marked plain rfl []
  have same : parse (ts ++ marker :: junk) = parse (ts ++ [marker]) := by
    rw [parse, parse, marked, alone]
  have mended (text : String) :
      parse ts = parse (ts ++ [⟨.endOfInput, text, .empty (missingEnd ts)⟩]) := by
    rw [parse, parse, missing, supplied]
  refine ⟨same, mended, fun limit enough => ?_⟩
  have bound {tokens : List Token} (rest : (Cursor.ofTokens tokens).rest = ts) :
      firstMarker tokens < limit := firstMarker_of_rest rest ▸ enough
  have ends := walk_ends (bound (congrArg Cursor.rest marked))
  refine ⟨?_, ?_, fun text => ?_⟩
  · rw [ends.1, (walk_ends (bound (congrArg Cursor.rest alone))).1, same]
  · intro current index looked
    have inside := (ends.2.lookups current index looked).2.1
    rwa [firstMarker_of_rest (congrArg Cursor.rest marked)] at inside
  · rw [(walk_ends (bound (congrArg Cursor.rest missing))).1,
      (walk_ends (bound (congrArg Cursor.rest (supplied text)))).1, mended text]

/-- The parenthesis that is missing stands behind the end marker, where nobody looks for it. -/
theorem parse_marked_parenthesis :
    let ts : List Token := [⟨.openParen, "(", ⟨0, 1⟩⟩, ⟨.name, "x", ⟨1, 2⟩⟩]
    let marker : Token := ⟨.endOfInput, "", ⟨7, 9⟩⟩
    let junk : List Token := [⟨.closeParen, ")", ⟨2, 3⟩⟩, marker]
    (∀ token ∈ ts, token.kind ≠ .endOfInput) ∧ marker.kind = .endOfInput ∧
      parse (ts ++ [marker]) = .error ⟨.missing .groupEnd none, ⟨2, 3⟩⟩ ∧
      parse (ts ++ marker :: junk) = parse (ts ++ [marker]) ∧
      parse ts = parse (ts ++ [.endMarker 2]) ∧
      (walk 3 (ts ++ marker :: junk)).1 = (walk 3 (ts ++ [marker])).1 := by
  intro ts marker junk
  have plain : ∀ token ∈ ts, token.kind ≠ .endOfInput := by decide
  obtain ⟨same, mended, walks⟩ := parse_marked ts junk marker plain rfl
  exact ⟨plain, rfl, rfl, same, mended "EOF", (walks 3 (by decide)).1⟩

end Syntax

end Scriptlet
