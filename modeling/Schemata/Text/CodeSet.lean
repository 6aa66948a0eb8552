/-! Sets of code points, written as inclusive ranges in ascending order. -/

namespace Schemata.Text

/-- Inclusive ranges of code points. -/
abbrev CodeSet := List (Nat × Nat)

/-- A character belongs to a set when one of the ranges covers its code point. -/
def CodeSet.has (set : CodeSet) (c : Char) : Bool :=
  set.any fun range => range.1 ≤ c.toNat && c.toNat ≤ range.2

end Schemata.Text
