import Schemata.Decimal.Binary64
import Schemata.Text.DecimalDigit

/-! Numbers read from decimal digits. A number may have a sign, a fraction and an exponent, or be a
word for one that is not finite. -/

namespace Schemata.Decimal

/-- The natural number that a run of digits writes. -/
def natOfDigits (digits : List Char) : Nat :=
  digits.foldl (fun n c => 10 * n + (c.toNat - 48)) 0

/-- The value of a digit in a base of at most sixteen. -/
def digitIn? (base : Nat) (c : Char) : Option Nat :=
  let value? :=
    if Text.isAsciiDigit c then some (c.toNat - 48)
    else if 'a' ≤ c && c ≤ 'f' then some (c.toNat - 87)
    else if 'A' ≤ c && c ≤ 'F' then some (c.toNat - 55)
    else none
  value?.filter (· < base)

/-- The natural number that digits write in a base, if there are only such digits, and some. -/
def natIn? (base : Nat) (digits : List Char) : Option Nat :=
  if digits.isEmpty then none
  else digits.foldlM (fun n c => (digitIn? base c).map (base * n + ·)) 0

/-- Whether a minus sign stands in front, and what follows a sign of either kind. -/
def splitSign : List Char → Bool × List Char
  | '-' :: rest => (true, rest)
  | '+' :: rest => (false, rest)
  | cs => (false, cs)

/-- The value of `digits.digits e exponent`, some digits being required. -/
def decimal? (cs : List Char) : Option Binary64 :=
  let whole := cs.takeWhile Text.isAsciiDigit
  let rest := cs.dropWhile Text.isAsciiDigit
  let (fraction, rest) := match rest with
    | '.' :: more => (more.takeWhile Text.isAsciiDigit, more.dropWhile Text.isAsciiDigit)
    | _ => ([], rest)
  if whole.isEmpty && fraction.isEmpty then none
  else
    let exponent? : Option Int := match rest with
      | [] => some 0
      | letter :: more =>
        if letter == 'e' || letter == 'E' then
          let (negative, digits) := splitSign more
          if !digits.isEmpty && digits.all Text.isAsciiDigit then
            let n : Int := natOfDigits digits
            some (if negative then -n else n)
          else none
        else none
    exponent?.map fun exponent =>
      .ofScientific (natOfDigits (whole ++ fraction)) (exponent - fraction.length)

/-- A word for an unbounded or undefined number, in any case. -/
def numberWord? (cs : List Char) : Option Binary64 :=
  match String.ofList (cs.map Char.toLower) with
  | "inf" | "infinity" => some .infinity
  | "nan" => some .notANumber
  | _ => none

/-- A number with a fraction or an exponent, or a word for one that is not finite, perhaps
signed. -/
def real? (cs : List Char) : Option Binary64 :=
  let (negative, unsigned) := splitSign cs
  ((decimal? unsigned).or (numberWord? unsigned)).map fun x => if negative then x.negate else x

/-- The greatest number of decimal digits of an integer that is read or written. -/
def digitLimit : Nat := 4300

/-- What is wrong with an integer of too many digits; their number is left out where it is not
known. -/
def longIntegerText (digits? : Option Nat) : String :=
  let known := digits?.elim "" fun digits => s!": value has {digits} digits"
  s!"Exceeds the limit ({digitLimit} digits) for integer string conversion{known}; "
    ++ "use sys.set_int_max_str_digits() to increase the limit"

end Schemata.Decimal
