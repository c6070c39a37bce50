import Scriptlet.Syntax.Basic
import Scriptlet.Number.Basic

/-!
# Values

What a program computes with. Objects and functions have an identity: every evaluation of an object
literal or a function declaration makes a new one. Objects never change after that, so that a value
carries its entries with it. A function carries its declaration and the number of the scope in which
it was declared.
-/
namespace Scriptlet

/-- Scopes are numbered in the order in which they were made. -/
abbrev ScopeId := Nat

/-- What tells one object or function from all others. -/
abbrev Identity := Nat

/-- A declared function together with the scope of its declaration. -/
structure Closure where
  name : String
  params : List String
  body : List Stmt
  scope : ScopeId
  deriving Repr, Inhabited

inductive Value where
  | number (n : Number)
  | text (s : String)
  | boolean (b : Bool)
  | null
  | object (id : Identity) (entries : List (String × Value))
  | function (id : Identity) (closure : Closure)
  | native (id : Identity) (name : String)
  deriving Repr, Inhabited

/-- The entries of an object, in the order in which their keys first occurred. -/
abbrev Entries := List (String × Value)

namespace Entries

/-- A key that is present keeps its place and gets the new value; a new key goes to the end. -/
def insert (key : String) (value : Value) : Entries → Entries
  | [] => [(key, value)]
  | (k, v) :: rest => if k = key then (k, value) :: rest else (k, v) :: insert key value rest

def get? (key : String) (entries : Entries) : Option Value := entries.lookup key

/-- Reading back after an insertion: the new value under its key, and the old ones elsewhere. -/
theorem get?_insert (key other : String) (value : Value) (entries : Entries) :
    get? other (insert key value entries) =
      if other = key then some value else get? other entries := by
  induction entries with
  | nil =>
    by_cases h : other = key
    · simp [insert, get?, h]
    · simp [insert, get?, h, List.lookup_cons, beq_eq_false_iff_ne.mpr h]
  | cons entry rest ih =>
    obtain ⟨k, v⟩ := entry
    simp only [get?] at ih
    by_cases hk : k = key
    · subst hk
      by_cases h : other = k
      · simp [insert, get?, h]
      · simp [insert, get?, h, List.lookup_cons, beq_eq_false_iff_ne.mpr h]
    · by_cases h : other = k
      · subst h
        simp [insert, get?, hk]
      · simp [insert, get?, hk, List.lookup_cons, beq_eq_false_iff_ne.mpr h, ih]

/-- An insertion brings in no other value than the one that is inserted. -/
theorem mem_insert {key : String} {value : Value} {entries : Entries} {entry : String × Value}
    (member : entry ∈ insert key value entries) : entry ∈ entries ∨ entry.2 = value := by
  induction entries with
  | nil =>
    rw [insert, List.mem_singleton] at member
    exact .inr (by rw [member])
  | cons first rest ih =>
    rw [insert] at member
    split at member
    · rcases List.mem_cons.mp member with rfl | old
      · exact .inr rfl
      · exact .inl (List.mem_cons_of_mem _ old)
    · rcases List.mem_cons.mp member with rfl | later
      · exact .inl List.mem_cons_self
      · exact (ih later).imp_left (List.mem_cons_of_mem _)

end Entries

namespace Value

/-- False are `false`, both zeros, NaN, the empty text and `null`. -/
def isTruthy : Value → Bool
  | number n => !n.isZero && !n.isNaN
  | text s => !s.isEmpty
  | boolean b => b
  | null => false
  | object .. | function .. | native .. => true

def typeName : Value → String
  | number _ => "number"
  | text _ => "string"
  | boolean _ => "boolean"
  | null => "null"
  | object .. => "object"
  | function .. => "function"
  | native .. => "native function"

/-- Equality as programs see it: the same type and the same content, and the same identity for
values that have one. -/
def strictEqual : Value → Value → Bool
  | number a, number b => a.equal b
  | text a, text b => a = b
  | boolean a, boolean b => a = b
  | null, null => true
  | object i _, object j _ => i = j
  | function i _, function j _ => i = j
  | native i _, native j _ => i = j
  | _, _ => false

mutual

/-- Equality of content: two objects are alike also when their entries are, one by one and in
order. -/
def alike : Value → Value → Bool
  | object i a, object j b => i = j || alikeEntries a b
  | a, b => a.strictEqual b

def alikeEntries : Entries → Entries → Bool
  | [], [] => true
  | (k, v) :: rest, (k', v') :: rest' => k = k' && v.alike v' && alikeEntries rest rest'
  | _, _ => false

end

end Value

end Scriptlet
