/-! Doubles as data. A double is kept as its 64 bits, so equality of the type tells every two of
them apart; `Binary64.value` says which dyadic number the bits stand for. -/

namespace Schemata

/-- A double, as the 64 bits of its interchange form. -/
structure Binary64 where
  bits : UInt64
  deriving DecidableEq, Repr, Inhabited

namespace Binary64

/-- What a double stands for: a multiple of a power of two, an infinity, or no number. -/
inductive Value where
  | finite (negative : Bool) (significand : Nat) (exponent : Int)
  | infinite (negative : Bool)
  | undefined
  deriving DecidableEq, Repr

/-- The sign bit. -/
def negative (x : Binary64) : Bool := Nat.pow 2 63 ≤ x.bits.toNat

/-- The eleven exponent bits. -/
def exponentField (x : Binary64) : Nat := x.bits.toNat / Nat.pow 2 52 % 2048

/-- The low 52 bits. -/
def fraction (x : Binary64) : Nat := x.bits.toNat % Nat.pow 2 52

/-- Exponent field 0 holds the subnormal numbers, field 2047 the infinities and the non-numbers. -/
def value (x : Binary64) : Value :=
  if x.exponentField = 2047 then
    if x.fraction = 0 then .infinite x.negative else .undefined
  else if x.exponentField = 0 then .finite x.negative x.fraction (-1074)
  else .finite x.negative (Nat.pow 2 52 + x.fraction) ((x.exponentField : Int) - 1075)

def infinity : Binary64 := ⟨0x7FF0000000000000⟩
def notANumber : Binary64 := ⟨0x7FF8000000000000⟩

/-- The same magnitude with the sign turned around. -/
def negate (x : Binary64) : Binary64 := ⟨x.bits ^^^ 0x8000000000000000⟩

/-- The double nearest to `digits · 10 ^ exponent`. Magnitudes beyond the range of doubles are
settled by the count of digits, before any large power is taken. -/
def ofScientific (digits : Nat) (exponent : Int) : Binary64 :=
  let places : Int := (Nat.toDigits 10 digits).length + exponent
  if digits = 0 then ⟨0⟩
  else if 310 < places then infinity
  else if places < -330 then ⟨0⟩
  else ⟨(Float.ofScientific digits (exponent < 0) exponent.natAbs).toBits⟩

/-- The double nearest to an integer. -/
def ofInt (n : Int) : Binary64 :=
  if n < 0 then (ofScientific n.natAbs 0).negate else ofScientific n.natAbs 0

/-- Sum and product, each rounded to the nearest double. -/
def plus (x y : Binary64) : Binary64 := ⟨(Float.ofBits x.bits + Float.ofBits y.bits).toBits⟩
def times (x y : Binary64) : Binary64 := ⟨(Float.ofBits x.bits * Float.ofBits y.bits).toBits⟩

/-- Neither an infinity nor a non-number. -/
def isFinite (x : Binary64) : Bool := x.exponentField != 2047

/-- Zero of either sign. -/
def isZero (x : Binary64) : Bool :=
  match x.value with
  | .finite _ 0 _ => true
  | _ => false

/-- Zero and everything below it. -/
def isAtMostZero (x : Binary64) : Bool :=
  match x.value with
  | .finite negative significand _ => negative || significand == 0
  | .infinite negative => negative
  | .undefined => false

/-- The integer that a finite double without fractional part stands for. -/
def toInt? (x : Binary64) : Option Int :=
  match x.value with
  | .finite negative significand exponent =>
    let magnitude? : Option Nat :=
      if 0 ≤ exponent then some (significand * Nat.pow 2 exponent.toNat)
      else if significand % Nat.pow 2 (-exponent).toNat = 0 then
        some (significand / Nat.pow 2 (-exponent).toNat)
      else none
    magnitude?.map fun n => if negative then -(n : Int) else n
  | _ => none

/-- Equality of numbers: the two zeros are equal, and no number equals a non-number. -/
def sameNumber (x y : Binary64) : Bool :=
  match x.value, y.value with
  | .undefined, _ | _, .undefined => false
  | .finite _ 0 _, .finite _ 0 _ => true
  | _, _ => x.bits == y.bits

end Binary64

end Schemata
