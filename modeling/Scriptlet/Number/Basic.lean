/-!
# Numbers

A number is a double: 64 bits laid out as IEEE 754 binary64. Everything here is read off the bits.
Without its sign bit a double is a natural number, its magnitude, and magnitudes are ordered like
the absolute values that they stand for, infinity included. The magnitudes past infinity are NaN.
-/
namespace Scriptlet

structure Number where
  bits : UInt64
  deriving DecidableEq, Repr, Inhabited

namespace Number

/-- The weight of the sign bit. -/
def signWeight : Nat := 0x8000000000000000

/-- The magnitude of infinity: exponent field 2047 and no fraction. -/
def infiniteMagnitude : Nat := 0x7FF0000000000000

def magnitude (n : Number) : Nat := n.bits.toNat % signWeight

def isNegative (n : Number) : Bool := signWeight ≤ n.bits.toNat

def isNaN (n : Number) : Bool := infiniteMagnitude < n.magnitude

def isInfinite (n : Number) : Bool := n.magnitude = infiniteMagnitude

def isFinite (n : Number) : Bool := n.magnitude < infiniteMagnitude

/-- Both zeros, the positive and the negative one. -/
def isZero (n : Number) : Bool := n.magnitude = 0

def ofMagnitude (negative : Bool) (magnitude : Nat) : Number :=
  ⟨UInt64.ofNat (magnitude + if negative then signWeight else 0)⟩

def zero : Number := ofMagnitude false 0

def infinity : Number := ofMagnitude false infiniteMagnitude

/-- The quiet NaN without payload. -/
def nan : Number := ofMagnitude false 0x7FF8000000000000

def neg (n : Number) : Number := ofMagnitude (!n.isNegative) n.magnitude

/-- Ordering key of a number that is not NaN. Both zeros have the key 0. -/
def key (n : Number) : Int := if n.isNegative then -(n.magnitude : Int) else n.magnitude

/-- Equality of numbers: the zeros are equal, and NaN equals nothing, not even itself. -/
def equal (a b : Number) : Bool := !a.isNaN && !b.isNaN && a.key == b.key

/-- The order of two numbers; NaN has no place in it. -/
def compare? (a b : Number) : Option Ordering :=
  if a.isNaN || b.isNaN then none else some (compare a.key b.key)

theorem ext {a b : Number} (h : a.bits = b.bits) : a = b := by
  cases a
  cases b
  simp_all

theorem bits_toNat (n : Number) :
    n.bits.toNat = n.magnitude + if n.isNegative then signWeight else 0 := by
  have bound := n.bits.toNat_lt
  cases h : n.isNegative
  · have := of_decide_eq_false h
    simp only [magnitude, signWeight, Bool.false_eq_true, if_false] at *
    omega
  · have := of_decide_eq_true h
    simp only [magnitude, signWeight, if_true] at *
    omega

theorem magnitude_ofMagnitude {negative : Bool} {m : Nat} (h : m < signWeight) :
    (ofMagnitude negative m).magnitude = m := by
  simp only [signWeight] at h
  cases negative <;> simp [ofMagnitude, magnitude, signWeight] <;> omega

theorem isNegative_ofMagnitude {negative : Bool} {m : Nat} (h : m < signWeight) :
    (ofMagnitude negative m).isNegative = negative := by
  simp only [signWeight] at h
  cases negative <;> simp [ofMagnitude, isNegative, signWeight] <;> omega

/-- A number is its sign and its magnitude. -/
theorem ofMagnitude_magnitude (n : Number) : ofMagnitude n.isNegative n.magnitude = n := by
  apply ext
  simp only [ofMagnitude]
  rw [← bits_toNat]
  simp

theorem equal_self_iff (n : Number) : n.equal n = true ↔ n.isNaN = false := by
  simp [equal]

theorem equal_comm (a b : Number) : a.equal b = b.equal a := by
  rw [equal, equal, Bool.and_comm (!a.isNaN), Bool.beq_comm]

theorem equal_trans {a b c : Number} (h : a.equal b = true) (k : b.equal c = true) :
    a.equal c = true := by
  simp only [equal, Bool.and_eq_true, beq_iff_eq] at *
  exact ⟨⟨h.1.1, k.1.2⟩, h.2.trans k.2⟩

end Number

end Scriptlet
