import Scriptlet.Number.Rounding

/-!
# Arithmetic

Sums, differences, products and quotients are those of the hardware. The remainder is exact: it is
the remainder of the whole numbers of units, and has the sign of the dividend.
-/
namespace Scriptlet

namespace Number

def toFloat (n : Number) : Float := Float.ofBits n.bits

def ofFloat (x : Float) : Number := ⟨x.toBits⟩

def add (a b : Number) : Number := ofFloat (a.toFloat + b.toFloat)

def sub (a b : Number) : Number := ofFloat (a.toFloat - b.toFloat)

def mul (a b : Number) : Number := ofFloat (a.toFloat * b.toFloat)

def div (a b : Number) : Number := ofFloat (a.toFloat / b.toFloat)

/-- What is left of `a` after taking `b` away as often as it fits, toward zero. A remainder by
infinity leaves `a` whole; one of infinity, or by zero, is NaN. -/
def rem (a b : Number) : Number :=
  if a.isNaN || b.isNaN || a.isInfinite || b.isZero then nan
  else if b.isInfinite then a
  else ofUnits a.isNegative (a.units % b.units)

end Number

end Scriptlet
