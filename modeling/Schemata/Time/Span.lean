import Schemata.Decimal.Binary64

/-! Spans of time. A span is given in seconds, as a double, and counted in microseconds. -/

namespace Schemata.Time

/-- A dyadic number `n / 2 ^ places` with its significand rounded to 53 bits, a tie to the even
neighbour. -/
def roundedSignificand (n places : Nat) : Nat × Nat :=
  let surplus := Nat.log2 n + 1 - 53
  let unit := Nat.pow 2 surplus
  let (whole, rest) := (n / unit, n % unit)
  let up := unit < 2 * rest ∨ (2 * rest = unit ∧ whole % 2 = 1)
  let rounded := if up then whole + 1 else whole
  if surplus ≤ places then (rounded, places - surplus)
  else (rounded * Nat.pow 2 (surplus - places), 0)

/-- The microseconds of a span given in seconds. The fraction of a second is turned into
microseconds as a double, and a half goes to the even neighbour. -/
def microsOfSeconds (seconds : Binary64) : Int :=
  match seconds.value with
  | .finite negative significand exponent =>
    let magnitude :=
      if 0 ≤ exponent then significand * Nat.pow 2 exponent.toNat * 1000000
      else
        let unit := Nat.pow 2 exponent.natAbs
        let (micros, places) := roundedSignificand (significand % unit * 1000000) exponent.natAbs
        let total := significand / unit * 1000000 + micros / Nat.pow 2 places
        let rest := micros % Nat.pow 2 places
        if Nat.pow 2 places < 2 * rest ∨ (2 * rest = Nat.pow 2 places ∧ total % 2 = 1)
          then total + 1
        else total
    if negative then -magnitude else magnitude
  | _ => 0

end Schemata.Time
