import Scriptlet.Repl

/-!
# The lines of a text

The prompt reads bytes and cuts them at line feeds before it knows whether they are text. In UTF-8
no other character has a byte like that, so that a text is cut into the bytes of its lines, and each
line can be decoded by itself.
-/
namespace Scriptlet

namespace Text

/-- The bytes of a text in UTF-8. -/
def bytes (text : List Char) : List UInt8 := text.flatMap String.utf8EncodeChar

/-- The lines of a text, without the line feeds that end them. No line begins behind the last
one. -/
def lines (text : List Char) : List (List Char) :=
  let pieces := text.splitOn '\n'
  if pieces.getLast? = some [] then pieces.dropLast else pieces

end Text

namespace Repl

/-- Puts a piece in front of the first line. -/
def extend {α : Type} (piece : List α) : List (List α) → List (List α)
  | [] => [piece]
  | line :: rest => (piece ++ line) :: rest

theorem extend_append {α : Type} (first second : List α) (rest : List (List α)) :
    extend (first ++ second) rest = extend first (extend second rest) := by
  cases rest <;> simp [extend]

theorem lines_cons {byte : UInt8} (within : byte ≠ 10) (rest : List UInt8) :
    lines (byte :: rest) = extend [byte] (lines rest) := by
  rw [lines, if_neg within]
  cases lines rest <;> rfl

theorem lines_append {piece : List UInt8} (some_byte : piece ≠ [])
    (within : ∀ byte ∈ piece, byte ≠ 10) (rest : List UInt8) :
    lines (piece ++ rest) = extend piece (lines rest) := by
  induction piece with
  | nil => exact absurd rfl some_byte
  | cons byte piece ih =>
    obtain ⟨first, others⟩ := List.forall_mem_cons.mp within
    rw [List.cons_append, lines_cons first]
    cases piece with
    | nil => rfl
    | cons next piece =>
      rw [ih (List.cons_ne_nil _ _) others, ← extend_append]
      rfl

theorem lines_ne_nil (byte : UInt8) (rest : List UInt8) : lines (byte :: rest) ≠ [] := by
  by_cases feed : byte = 10
  · rw [lines, if_pos feed]
    exact List.cons_ne_nil _ _
  · rw [lines_cons feed]
    cases lines rest <;> exact List.cons_ne_nil _ _

/-- Whatever follows a line feed leaves the lines before it as they are. -/
theorem lines_feed_append (input more : List UInt8) :
    ∃ later, lines (input ++ 10 :: more) = lines input ++ later := by
  induction input with
  | nil => exact ⟨[] :: lines more, rfl⟩
  | cons byte input ih =>
    obtain ⟨later, cut⟩ := ih
    by_cases feed : byte = 10
    · subst feed
      exact ⟨later, congrArg ([] :: ·) cut⟩
    · rw [List.cons_append, lines_cons feed, lines_cons feed]
      cases input with
      | nil => exact ⟨lines more, rfl⟩
      | cons next input =>
        refine ⟨later, ?_⟩
        rw [cut]
        cases split : lines (next :: input) with
        | nil => exact absurd split (lines_ne_nil next input)
        | cons line rest => rfl

end Repl

namespace Text

open Repl (extend)

theorem lines_nil : lines [] = [] := by
  simp [lines, List.splitOn, List.splitOnP_nil]

theorem lines_feed (rest : List Char) : lines ('\n' :: rest) = [] :: lines rest := by
  have pieces : ('\n' :: rest).splitOn '\n' = [] :: rest.splitOn '\n' := by
    simp [List.splitOn, List.splitOnP_cons_eq_if_modifyHead]
  have some_piece : rest.splitOn '\n' ≠ [] := List.splitOnP_ne_nil _ _
  simp only [lines, pieces]
  cases split : rest.splitOn '\n' with
  | nil => exact absurd split some_piece
  | cons piece others =>
    rw [List.getLast?_cons_cons, List.dropLast_cons_of_ne_nil (List.cons_ne_nil _ _)]
    split <;> rfl

theorem lines_cons {c : Char} (within : c ≠ '\n') (rest : List Char) :
    lines (c :: rest) = extend [c] (lines rest) := by
  have pieces : (c :: rest).splitOn '\n' = (rest.splitOn '\n').modifyHead (List.cons c) := by
    simp [List.splitOn, List.splitOnP_cons_eq_if_modifyHead, within]
  have some_piece : rest.splitOn '\n' ≠ [] := List.splitOnP_ne_nil _ _
  simp only [lines, pieces]
  cases split : rest.splitOn '\n' with
  | nil => exact absurd split some_piece
  | cons piece others =>
    cases others with
    | nil => cases piece <;> simp [extend]
    | cons next others =>
      simp only [List.modifyHead_cons, List.getLast?_cons_cons, List.dropLast_cons_cons]
      split <;> rfl

theorem encode_ne_nil (c : Char) : String.utf8EncodeChar c ≠ [] := by
  have size := String.length_utf8EncodeChar c
  have positive := c.utf8Size_pos
  intro none
  rw [none, List.length_nil] at size
  omega

/-- Only a line feed has the byte of a line feed. -/
theorem encode_ne_feed {c : Char} (within : c ≠ '\n') :
    ∀ byte ∈ String.utf8EncodeChar c, byte ≠ 10 := by
  have code : c.val.toNat ≠ 10 := fun same => within (Char.toNat_inj.mp same)
  have apart {n : Nat} (small : n < 256) (other : n ≠ 10) : UInt8.ofNat n ≠ 10 := by
    intro same
    have := congrArg UInt8.toNat same
    rw [UInt8.toNat_ofNat_of_lt' small] at this
    exact other this
  simp only [String.utf8EncodeChar]
  split
  · rw [List.forall_mem_singleton]
    exact apart (by omega) code
  · -- All bytes of a longer code are 128 at least.
    split
    · simp only [List.forall_mem_cons]
      refine ⟨apart ?_ ?_, apart ?_ ?_, List.forall_mem_nil _⟩ <;> omega
    · split
      · simp only [List.forall_mem_cons]
        refine ⟨apart ?_ ?_, apart ?_ ?_, apart ?_ ?_, List.forall_mem_nil _⟩ <;> omega
      · simp only [List.forall_mem_cons]
        refine ⟨apart ?_ ?_, apart ?_ ?_, apart ?_ ?_, apart ?_ ?_, List.forall_mem_nil _⟩ <;> omega

/-- The bytes of a text are cut where the text is. -/
theorem lines_bytes (text : List Char) : Repl.lines (bytes text) = (lines text).map bytes := by
  induction text with
  | nil => rw [lines_nil]; rfl
  | cons c rest ih =>
    rw [bytes, List.flatMap_cons, ← bytes]
    by_cases feed : c = '\n'
    · subst feed
      rw [lines_feed, List.map_cons, ← ih]
      rfl
    · rw [Repl.lines_append (encode_ne_nil c) (encode_ne_feed feed), lines_cons feed, ih]
      cases lines rest <;> simp [extend, bytes]

theorem bytes_toList (text : String) : bytes text.toList = text.toUTF8.data.toList := by
  have same : text.toByteArray = List.utf8Encode text.toList := by
    rw [← String.toByteArray_ofList, String.ofList_toList]
  change _ = text.toByteArray.data.toList
  rw [same, List.utf8Encode, List.data_toByteArray]
  rfl

end Text

namespace Repl

theorem decode_bytes (line : List Char) :
    decode (Text.bytes line) = some (String.ofList (Text.trim line)) := by
  have same : (⟨(Text.bytes line).toArray⟩ : ByteArray) = (String.ofList line).toByteArray := by
    rw [String.toByteArray_ofList]
    exact ByteArray.ext List.data_toByteArray.symm
  rw [decode, same, String.fromUTF8?, dif_pos (String.ofList line).isValidUTF8]
  change some (String.ofList (Text.trim (String.ofList line).toList)) = _
  rw [String.toList_ofList]

end Repl

end Scriptlet
