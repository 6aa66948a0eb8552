import Schemata.Decimal.Binary64

/-! The shortest decimal that reads back as a given double, and decimals rounded to a fixed count of
digits. Both work in exact arithmetic on the fraction that the double stands for. -/

namespace Schemata.Decimal

/-- The positive decimal `digits · 10 ^ exponent`. -/
structure Scientific where
  digits : Nat
  exponent : Int
  deriving DecidableEq, Repr

/-- The count of decimal digits of a natural number, 0 having none. -/
def digitCount (n : Nat) : Nat := if n = 0 then 0 else (Nat.toDigits 10 n).length

/-- For a positive fraction, the least power of ten above it: `10 ^ (k - 1) ≤ num / den < 10 ^
k`. -/
def magnitude (num den : Nat) : Int :=
  if den ≤ num then digitCount (num / den) else 1 - (digitCount ((den - 1) / num) : Int)

/-- Multiplies a fraction by `10 ^ (-place)`, as numerator and denominator. -/
def shift (num den : Nat) (place : Int) : Nat × Nat :=
  if 0 ≤ place then (num, den * Nat.pow 10 place.toNat)
  else (num * Nat.pow 10 (-place).toNat, den)

/-- Moves the zeros at the end of the digits into the exponent. The fuel bounds their number. -/
def dropZeros : Nat → Scientific → Scientific
  | 0, d => d
  | fuel + 1, d =>
    if d.digits ≠ 0 ∧ d.digits % 10 = 0 then dropZeros fuel ⟨d.digits / 10, d.exponent + 1⟩ else d

def Scientific.normal (d : Scientific) : Scientific := dropZeros (digitCount d.digits) d

/-- The interval of fractions, over one denominator, whose nearest double is the given one. The ends
belong to it when the significand is even. -/
structure Interval where
  low : Nat
  middle : Nat
  high : Nat
  den : Nat
  closed : Bool

/-- A double's neighbours lie one unit away, except that the lower one is nearer below a power of
two. -/
def interval (significand : Nat) (exponent : Int) : Interval :=
  let scale := if 0 ≤ exponent then Nat.pow 2 exponent.toNat else 1
  let den := 4 * if 0 ≤ exponent then 1 else Nat.pow 2 (-exponent).toNat
  let below := if significand = Nat.pow 2 52 ∧ -1074 < exponent then 1 else 2
  { low := (4 * significand - below) * scale
    middle := 4 * significand * scale
    high := (4 * significand + 2) * scale
    den
    closed := significand % 2 = 0 }

/-- Whether `digits · 10 ^ place` lies in the interval. -/
def Interval.holds (i : Interval) (digits : Nat) (place : Int) : Bool :=
  let (low, den) := shift i.low i.den place
  let (high, _) := shift i.high i.den place
  if i.closed then low ≤ digits * den && digits * den ≤ high
  else low < digits * den && digits * den < high

/-- On the grid of multiples of `10 ^ place`, the neighbour of the middle that lies in the interval;
of two the nearer, and of two equally near the even one. -/
def Interval.pick? (i : Interval) (place : Int) : Option Nat :=
  let (num, den) := shift i.middle i.den place
  let below := num / den
  let above := below + 1
  match i.holds below place, i.holds above place with
  | false, false => none
  | true, false => some below
  | false, true => some above
  | true, true =>
    let left := num - below * den
    let right := above * den - num
    if left < right then some below
    else if right < left then some above
    else some (if below % 2 = 0 then below else above)

/-- The fewest digits that read back as `significand · 2 ^ exponent`, for a positive significand. -/
def shortest (significand : Nat) (exponent : Int) : Scientific :=
  let i := interval significand exponent
  let top := magnitude i.middle i.den
  let found? := (List.range 17).findSome? fun (n : Nat) =>
    (i.pick? (top - (n + 1))).map fun digits => Scientific.mk digits (top - (n + 1))
  (found?.getD ⟨significand, exponent⟩).normal

/-- Rounds a quotient to a natural number, a half going to the even neighbour. -/
def roundQuotient (num den : Nat) : Nat :=
  let floor := num / den
  let rest := num - floor * den
  if 2 * rest < den then floor
  else if den < 2 * rest then floor + 1
  else if floor % 2 = 0 then floor else floor + 1

/-- `significand · 2 ^ exponent` rounded to `count` significant digits. -/
def significant (count : Nat) (significand : Nat) (exponent : Int) : Scientific :=
  let num := significand * if 0 ≤ exponent then Nat.pow 2 exponent.toNat else 1
  let den := if 0 ≤ exponent then 1 else Nat.pow 2 (-exponent).toNat
  let place := magnitude num den - count
  let (num, den) := shift num den place
  (Scientific.mk (roundQuotient num den) place).normal

end Schemata.Decimal
