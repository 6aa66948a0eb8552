import Schemata.Decimal.Shortest

/-! Written forms of doubles. A layout says which magnitudes are written positionally and whether a
whole number keeps a fractional part; `Binary64.toText` and `Binary64.toBrief` are the two forms in
use. -/

namespace Schemata.Decimal

/-- How a decimal is laid out. -/
structure Layout where
  /-- The least power of the leading digit that is written positionally. -/
  least : Int
  /-- The first power of the leading digit that is no longer written positionally. -/
  limit : Int
  /-- A positional whole number ends in `.0`. -/
  wholeMark : Bool

/-- Values: positional from 0.0001 up to below ten quadrillion, whole numbers marked. -/
def Layout.value : Layout := ⟨-4, 16, true⟩

/-- Durations: positional from 0.0001 up to below a million, whole numbers bare. -/
def Layout.duration : Layout := ⟨-4, 6, false⟩

private def zeros (n : Nat) : List Char := List.replicate n '0'

/-- The exponent with its sign and at least two digits. -/
def exponentText (power : Int) : List Char :=
  let digits := Nat.toDigits 10 power.natAbs
  'e' :: (if power < 0 then '-' else '+') :: zeros (2 - digits.length) ++ digits

/-- Lays out a positive decimal whose digits do not end in zero. -/
def Layout.write (layout : Layout) (d : Scientific) : List Char :=
  let digits := Nat.toDigits 10 d.digits
  let point : Int := digits.length + d.exponent
  if layout.least ≤ point - 1 ∧ point - 1 < layout.limit then
    if point ≤ 0 then '0' :: '.' :: zeros (-point).toNat ++ digits
    else if 0 ≤ d.exponent then
      digits ++ zeros d.exponent.toNat ++ if layout.wholeMark then ['.', '0'] else []
    else digits.take point.toNat ++ '.' :: digits.drop point.toNat
  else
    let tail := digits.drop 1
    digits.take 1 ++ (if tail.isEmpty then [] else '.' :: tail) ++ exponentText (point - 1)

/-- Writes a double, given how to choose the digits of a positive one. -/
def Layout.render (layout : Layout) (choose : Nat → Int → Scientific) (x : Binary64) : String :=
  match x.value with
  | .undefined => "nan"
  | .infinite negative => if negative then "-inf" else "inf"
  | .finite negative significand exponent =>
    let body :=
      if significand = 0 then if layout.wholeMark then ['0', '.', '0'] else ['0']
      else layout.write (choose significand exponent)
    .ofList (if negative then '-' :: body else body)

end Schemata.Decimal

namespace Schemata.Binary64

open Decimal

/-- The shortest text that reads back as the double. -/
def toText (x : Binary64) : String := Layout.value.render shortest x

/-- The double to six significant digits. -/
def toBrief (x : Binary64) : String := Layout.duration.render (significant 6) x

end Schemata.Binary64
