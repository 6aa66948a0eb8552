import Schemata.Decimal.Numeral
import Schemata.Shape.Checked
import Schemata.Text.Blank
import Schemata.Text.DecimalDigit

/-! Numbers written as text in settings. White space around a number does not count, and single
underscores may stand inside it; an integer may have zeros in front and a fraction of zeros. -/

namespace Schemata.Settings

/-- White space proper; the information separators do not belong to it. -/
def isWhiteSpace (c : Char) : Bool := Text.isBlank c && !(28 ≤ c.toNat && c.toNat ≤ 31)

def trimmed (text : String) : List Char :=
  ((text.toList.dropWhile isWhiteSpace).reverse.dropWhile isWhiteSpace).reverse

/-- The text without its underscores, when none of them stands at an end or beside another one. -/
def withoutUnderscores? (cs : List Char) : Option (List Char) :=
  if cs.head? == some '_' || cs.getLast? == some '_' ||
    (cs.zip (cs.drop 1)).contains ('_', '_') then
    none
  else some (cs.filter (· != '_'))

/-- What follows the zeros in front, underscores among them: a number from its first other digit or
its sign on, or from the zero before its point on. Of zeros alone the last character is left. -/
def afterZeros? (last : Char) : List Char → Option (List Char)
  | [] => some [last]
  | c :: rest =>
    if c == '0' || c == '_' then afterZeros? c rest
    else if Text.isAsciiDigit c || c == '-' then some (c :: rest)
    else if c == '.' then some (last :: c :: rest)
    else none

/-- A number without the zeros in front; it has to start with a digit or its sign. -/
def withoutZeros? : List Char → Option (List Char)
  | [] => none
  | c :: rest =>
    if c == '0' then afterZeros? c rest
    else if Text.isAsciiDigit c || c == '-' then some (c :: rest)
    else none

/-- A number without its fraction, when that is made of zeros. -/
def withoutFraction (cs : List Char) : List Char :=
  match cs.dropWhile (· != '.') with
  | _ :: zero :: zeros => if (zero :: zeros).all (· == '0') then cs.takeWhile (· != '.') else cs
  | _ => cs

/-- The longest written form of an integer that is taken up, its sign counted. -/
def integerWidth : Nat := 4300

/-- An integer in its plain form: digits, behind a minus sign or not, without zeros in front. -/
def plainInteger (cs : List Char) : Checked Int :=
  let (negative, body) := match cs with
    | '-' :: rest => (true, rest)
    | _ => (false, cs)
  let digits := body.takeWhile Text.isAsciiDigit
  let n : Int := Decimal.natOfDigits digits
  if digits.isEmpty || (digits.head? == some '0' && digits.length ≠ 1) then .fail .unclearInteger
  else if integerWidth < digits.length + (if negative then 1 else 0) then .fail .hugeInteger
  else if body.length ≠ digits.length then .fail .unclearInteger
  else .valid (if negative then -n else n)

/-- An integer: a sign, digits, and possibly a fraction of zeros. Everything that its plain form
does not have is taken away first. -/
def integer (text : String) : Checked Int :=
  let cs := trimmed text
  let (positive, unsigned) := match cs with
    | '+' :: rest => (true, rest)
    | _ => (false, cs)
  let (negative, unsigned) := match unsigned with
    | '-' :: rest => (true, rest)
    | _ => (false, unsigned)
  if positive && negative then .fail .unclearInteger
  else match withoutZeros? unsigned with
    | none => .fail .unclearInteger
    | some number =>
      let whole := withoutFraction number
      let digits := (withoutUnderscores? whole).getD whole
      plainInteger (if negative then '-' :: digits else digits)

/-- A number with white space around it or underscores in it, but not both. -/
def number (text : String) : Checked Binary64 :=
  match (Decimal.real? (trimmed text)).or ((withoutUnderscores? text.toList).bind
    Decimal.real?) with
  | some x => .valid x
  | none => .fail .unclearNumber

end Schemata.Settings
