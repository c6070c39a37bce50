/-!
# Powers of two, five and ten
-/
namespace Scriptlet

/-- The power of two with exponent `n`. -/
def twoPow (n : Nat) : Nat := Nat.pow 2 n

/-- The power of five with exponent `n`. -/
def fivePow (n : Nat) : Nat := Nat.pow 5 n

/-- The power of ten with exponent `n`. -/
def tenPow (n : Nat) : Nat := Nat.pow 10 n

theorem twoPow_pos (n : Nat) : 0 < twoPow n := Nat.pow_pos (by decide)

theorem tenPow_pos (n : Nat) : 0 < tenPow n := Nat.pow_pos (by decide)

theorem twoPow_add (m n : Nat) : twoPow (m + n) = twoPow m * twoPow n := Nat.pow_add 2 m n

theorem tenPow_add (m n : Nat) : tenPow (m + n) = tenPow m * tenPow n := Nat.pow_add 10 m n

theorem tenPow_eq (n : Nat) : tenPow n = twoPow n * fivePow n := Nat.mul_pow 2 5 n

end Scriptlet
