/-!
# Tables of characters

A class of characters given by the ranges of code points that belong to it, both ends included.
-/
namespace Scriptlet.Text

abbrev Table := List (Nat × Nat)

namespace Table

def covers (table : Table) (c : Char) : Bool :=
  table.any fun range => range.1 ≤ c.toNat && c.toNat ≤ range.2

/-- The ranges are in order and leave a gap between neighbours, so that a class has one table. -/
def isCanonical : Table → Bool
  | [] => true
  | [range] => range.1 ≤ range.2
  | range :: next :: rest =>
    range.1 ≤ range.2 && range.2 + 1 < next.1 && isCanonical (next :: rest)

end Table

end Scriptlet.Text
