import Mathlib.Data.List.Induction
import Scriptlet.Value.Printer

/-!
# Entries put in one after the other

An object gets its entries one by one, and a key may come again. Its place is then that of its
first occurrence and its value that of the last one (`collects_ofPairs`), and reading finds that
value.
-/
namespace Scriptlet

namespace Entries

variable {pairs : List (String × Value)} {entries : Entries} {key : String} {value : Value}

/-- Pairs of keys and values put into an empty object one after the other. -/
def ofPairs (pairs : List (String × Value)) : Entries :=
  pairs.foldl (fun entries pair => entries.insert pair.1 pair.2) []

/-- The value of the last pair with a key. -/
def LastOf (pairs : List (String × Value)) (key : String) (value : Value) : Prop :=
  ∃ before after, pairs = before ++ (key, value) :: after ∧ key ∉ after.map (·.1)

/-- Entries in which each key of some pairs stands where it first occurred, with the value that it
had last. -/
structure Collects (pairs : List (String × Value)) (entries : Entries) : Prop where
  keys : entries.map (·.1) = (pairs.map (·.1)).eraseDups
  values : ∀ key value, (key, value) ∈ entries ↔ LastOf pairs key value

theorem ofPairs_concat (pairs : List (String × Value)) (key : String) (value : Value) :
    ofPairs (pairs ++ [(key, value)]) = (ofPairs pairs).insert key value := by
  rw [ofPairs, List.foldl_append]
  rfl

theorem keys_insert (key : String) (value : Value) (entries : Entries) :
    (insert key value entries).map (·.1) =
      if key ∈ entries.map (·.1) then entries.map (·.1) else entries.map (·.1) ++ [key] := by
  induction entries with
  | nil => rfl
  | cons entry rest ih =>
    obtain ⟨k, v⟩ := entry
    by_cases same : k = key
    · simp [insert, same]
    · have other : key ≠ k := Ne.symm same
      rw [insert, if_neg same, List.map_cons, ih]
      by_cases later : key ∈ rest.map (·.1)
      · simp [later]
      · simp [later, other]

theorem keys_ofPairs (pairs : List (String × Value)) :
    (ofPairs pairs).map (·.1) = (pairs.map (·.1)).eraseDups := by
  induction pairs using List.reverseRec with
  | nil => rfl
  | append_singleton pairs pair ih =>
    obtain ⟨key, value⟩ := pair
    rw [ofPairs_concat, keys_insert, ih, List.map_append, List.eraseDups_append]
    by_cases again : key ∈ pairs.map (·.1)
    · simp [again, List.removeAll]
    · simp [again, List.removeAll, List.eraseDups_cons]

theorem nodup_keys_ofPairs (pairs : List (String × Value)) :
    ((ofPairs pairs).map (·.1)).Nodup := by
  induction pairs using List.reverseRec with
  | nil => exact List.nodup_nil
  | append_singleton pairs pair ih =>
    obtain ⟨key, value⟩ := pair
    rw [ofPairs_concat, keys_insert]
    split
    · exact ih
    · next new =>
      rw [List.nodup_append]
      refine ⟨ih, by simp, ?_⟩
      rintro old member _ (_ | ⟨_, ⟨⟩⟩) rfl
      exact new member

/-- Reading finds the last pair with a key. -/
theorem get?_ofPairs (pairs : List (String × Value)) (key : String) :
    (ofPairs pairs).get? key = pairs.reverse.lookup key := by
  induction pairs using List.reverseRec with
  | nil => rfl
  | append_singleton pairs pair ih =>
    obtain ⟨k, v⟩ := pair
    rw [ofPairs_concat, get?_insert, ih, List.reverse_append]
    by_cases same : key = k
    · simp [same]
    · simp [same, List.lookup_cons, beq_eq_false_iff_ne.mpr same]

theorem lookup_reverse_iff : pairs.reverse.lookup key = some value ↔ LastOf pairs key value := by
  rw [List.lookup_eq_some_iff]
  have apart (after : List (String × Value)) :
      (∀ pair ∈ after.reverse, (key != pair.1) = true) ↔ key ∉ after.map (·.1) := by
    simp only [List.mem_reverse, bne_iff_ne, List.mem_map, not_exists, not_and]
    exact forall₂_congr fun _ _ => ne_comm
  constructor
  · rintro ⟨after, before, split, others⟩
    refine ⟨before.reverse, after.reverse, ?_, ?_⟩
    · have whole := congrArg List.reverse split
      simpa using whole
    · rwa [← apart, List.reverse_reverse]
  · rintro ⟨before, after, rfl, others⟩
    exact ⟨after.reverse, before.reverse, by simp, (apart after).mpr others⟩

/-- Where no key comes twice, an entry is what is read under its key. -/
theorem mem_iff_get? (distinct : (entries.map (·.1)).Nodup) :
    (key, value) ∈ entries ↔ entries.get? key = some value := by
  induction entries with
  | nil => simp [get?]
  | cons entry rest ih =>
    obtain ⟨k, v⟩ := entry
    obtain ⟨apart, others⟩ := List.nodup_cons.mp distinct
    rw [List.mem_cons]
    by_cases same : key = k
    · subst same
      have gone : (key, value) ∉ rest := fun member =>
        apart (List.mem_map.mpr ⟨_, member, rfl⟩)
      simp [get?, gone, eq_comm]
    · rw [ih others]
      simp [get?, same, List.lookup_cons, beq_eq_false_iff_ne.mpr same]

theorem get?_ofPairs_eq_some_iff :
    (ofPairs pairs).get? key = some value ↔ LastOf pairs key value := by
  rw [get?_ofPairs, lookup_reverse_iff]

theorem get?_ofPairs_eq_none_iff :
    (ofPairs pairs).get? key = none ↔ key ∉ pairs.map (·.1) := by
  rw [get?_ofPairs, List.lookup_eq_none_iff]
  simp only [List.mem_reverse, bne_iff_ne, List.mem_map, not_exists, not_and]
  exact forall₂_congr fun _ _ => ne_comm

theorem isEmpty_ofPairs (pairs : List (String × Value)) :
    (ofPairs pairs).isEmpty = pairs.isEmpty := by
  have counts := congrArg List.isEmpty (keys_ofPairs pairs)
  rw [List.isEmpty_map] at counts
  rw [counts]
  cases pairs <;> simp [List.eraseDups_cons]

/-- **First places and last values.** -/
theorem collects_ofPairs (pairs : List (String × Value)) : Collects pairs (ofPairs pairs) where
  keys := keys_ofPairs pairs
  values := fun _ _ => (mem_iff_get? (nodup_keys_ofPairs pairs)).trans get?_ofPairs_eq_some_iff

end Entries

namespace Value

theorem renderEntries_eq_map (entries : Entries) : renderEntries entries =
    entries.map fun entry => entry.1 ++ ": " ++ entry.2.nestedText entry.2.render := by
  induction entries with
  | nil => rfl
  | cons entry rest ih => rw [renderEntries_cons, List.map_cons, ih]

end Value

end Scriptlet
