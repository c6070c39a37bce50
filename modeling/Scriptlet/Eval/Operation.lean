import Scriptlet.Eval.Fault
import Scriptlet.Number.Arithmetic
import Scriptlet.Value.Basic

/-!
# Operations on values

Arithmetic is defined on two numbers, addition also on two texts; any other pair of operands gives
`null`. Comparisons and connectives are defined on all values.
-/
namespace Scriptlet

namespace Value

/-- The order of two values of one type: numbers by size, texts by their code points. -/
def compare? : Value → Value → Option Ordering
  | number a, number b => a.compare? b
  | text a, text b => some (compare a b)
  | _, _ => none

end Value

namespace Comparison

def holds (op : Comparison) (a b : Value) : Bool :=
  match op with
  | equal => a.strictEqual b
  | notEqual => !a.strictEqual b
  | less => a.compare? b = some .lt
  | greater => a.compare? b = some .gt
  | lessEqual => a.compare? b = some .lt || a.compare? b = some .eq
  | greaterEqual => a.compare? b = some .gt || a.compare? b = some .eq

end Comparison

namespace Connective

def holds (op : Connective) (a b : Value) : Bool :=
  match op with
  | and => a.isTruthy && b.isTruthy
  | or => a.isTruthy || b.isTruthy

end Connective

namespace Arithmetic

def onNumbers (op : Arithmetic) (a b : Number) : Except Eval.Fault Number :=
  match op with
  | add => .ok (a.add b)
  | subtract => .ok (a.sub b)
  | multiply => .ok (a.mul b)
  | divide => if b.isZero then .error .divisionByZero else .ok (a.div b)
  | remainder => if b.isZero then .error .divisionByZero else .ok (a.rem b)

/-- Only a division or a remainder of numbers can fail. -/
theorem onNumbers_cases (op : Arithmetic) (a b : Number) :
    op.onNumbers a b = .error .divisionByZero ∧ (op = .divide ∨ op = .remainder) ∨
      ∃ c, op.onNumbers a b = .ok c := by
  cases op with
  | add | subtract | multiply => exact .inr ⟨_, rfl⟩
  | divide | remainder =>
    simp only [onNumbers]
    split
    · exact .inl ⟨rfl, by simp⟩
    · exact .inr ⟨_, rfl⟩

def apply (op : Arithmetic) : Value → Value → Except Eval.Fault Value
  | .number a, .number b => (op.onNumbers a b).map .number
  | .text a, .text b => .ok (if op = add then .text (a ++ b) else .null)
  | _, _ => .ok .null

end Arithmetic

namespace Operator

def apply (op : Operator) (a b : Value) : Except Eval.Fault Value :=
  match op with
  | connective op => .ok (.boolean (op.holds a b))
  | comparison op => .ok (.boolean (op.holds a b))
  | arithmetic op => op.apply a b

end Operator

end Scriptlet
