import Schemata.Decimal.Numeral
import Schemata.Json.Display
import Schemata.Text.DecimalDigit
import Schemata.Time.Stamp

/-! Dates with times as they are exchanged in text. A date names a month and a day, or a week and
perhaps a day of it; hyphens and colons may be left out, but not some of them. -/

namespace Schemata.Time

/-- A number of exactly so many digits. -/
def fixed? (width : Nat) (cs : List Char) : Option (Nat × List Char) :=
  let digits := cs.take width
  if digits.length = width ∧ digits.all Text.isAsciiDigit then
    some (Decimal.natOfDigits digits, cs.drop width)
  else none

/-- The place of the character between date and time, which may be any character. Of a week with
digits behind it the count of the digits tells whether the first one is a day. -/
def separatorPlace? (cs : List Char) : Option Nat :=
  let digitAt (n : Nat) : Bool := (cs[n]?).any Text.isAsciiDigit
  if cs.length < 7 then none
  else if cs.length = 7 then some 7
  else if cs[4]? == some '-' then
    if cs[5]? != some 'W' then some 10
    else if cs[8]? != some '-' then some 8
    else if cs.length = 9 then none
    else some (if digitAt 10 then 8 else 10)
  else if cs[4]? == some 'W' then
    let last := 7 + ((cs.drop 7).takeWhile Text.isAsciiDigit).length
    some (if last < 9 then last else if last % 2 = 0 then 7 else 8)
  else some 8

/-- Takes a hyphen away when one is due. -/
private def hyphen? (due : Bool) (cs : List Char) : Option (List Char) :=
  if due then
    match cs with
    | '-' :: rest => some rest
    | _ => none
  else some cs

/-- A date, by its month or by its week. -/
def date? (cs : List Char) : Option Date := do
  let (year, rest) ← fixed? 4 cs
  let hyphens := rest.head? == some '-'
  match if hyphens then rest.drop 1 else rest with
  | 'W' :: rest =>
    let (week, rest) ← fixed? 2 rest
    if rest.isEmpty then Date.ofWeek? year week 1
    else
      let (day, _) ← fixed? 1 (← hyphen? hyphens rest)
      Date.ofWeek? year week day
  | rest =>
    let (month, rest) ← fixed? 2 rest
    let (day, _) ← fixed? 2 (← hyphen? hyphens rest)
    return ⟨year, month, day⟩

/-- A fraction as microseconds, further digits left out, and whether nothing else stands behind. -/
def fraction? (cs : List Char) : Option (Nat × Bool) := do
  let first := cs.take 6
  let (n, rest) ← fixed? first.length cs
  return (n * Nat.pow 10 (6 - first.length), (rest.dropWhile Text.isAsciiDigit).isEmpty)

/-- What stands behind two digits of a time: nothing, a lone character, the next two digits, or a
fraction. -/
inductive ClockRest where
  | done
  | stray
  | digits (cs : List Char)
  | fraction (cs : List Char)
  deriving DecidableEq, Repr

/-- Goes on behind two digits. Only the first ones tell whether colons stand between them. -/
def clockRest? (colons : Bool) : List Char → Option ClockRest
  | [] => some .done
  | [_] => some .stray
  | c :: rest =>
    if colons && c == ':' then some (.digits rest)
    else if c == '.' || c == ',' then some (.fraction rest)
    else if colons then none
    else some (.digits (c :: rest))

/-- Hours, and minutes, seconds and a fraction as far as they are written, each of them as two
digits, and whether nothing else stands behind. A fraction may follow anything. -/
def clock? (cs : List Char) : Option (Clock × Bool) := do
  let (hour, rest) ← fixed? 2 cs
  let colons := rest.head? == some ':'
  let ended (clock : Clock) (rest : List Char) : Option (Clock × Bool) := do
    let (micro, clean) ← fraction? rest
    return ({ clock with micro }, clean)
  match ← clockRest? colons rest with
  | .done => return (⟨hour, 0, 0, 0⟩, true)
  | .stray => return (⟨hour, 0, 0, 0⟩, false)
  | .fraction rest => ended ⟨hour, 0, 0, 0⟩ rest
  | .digits rest =>
    let (minute, rest) ← fixed? 2 rest
    match ← clockRest? colons rest with
    | .done => return (⟨hour, minute, 0, 0⟩, true)
    | .stray => return (⟨hour, minute, 0, 0⟩, false)
    | .fraction rest => ended ⟨hour, minute, 0, 0⟩ rest
    | .digits rest =>
      let (second, rest) ← fixed? 2 rest
      match ← clockRest? colons rest with
      | .done => return (⟨hour, minute, second, 0⟩, true)
      | .stray => return (⟨hour, minute, second, 0⟩, false)
      | .fraction rest | .digits rest => ended ⟨hour, minute, second, 0⟩ rest

/-- Starts the distance from the prime meridian. -/
def startsZone (c : Char) : Bool := c == '+' || c == '-' || c == 'Z'

/-- A time of day with the distance from the prime meridian, which is `Z` or has a sign. Only what
ends the text has to be clean. -/
def timeOfDay? (cs : List Char) : Option (Clock × Option Int) := do
  let (clock, clean) ← clock? (cs.takeWhile fun c => !startsZone c)
  match cs.dropWhile fun c => !startsZone c with
  | [] => if clean then some (clock, none) else none
  | ['Z'] => some (clock, some 0)
  | 'Z' :: _ => none
  | sign :: rest =>
    let (distance, clean) ← clock? rest
    if clean then some (clock, some (if sign = '-' then -distance.micros else distance.micros))
    else none

/-- Reads a date, and a time after any single character. -/
def Stamp.read? (cs : List Char) : Option Stamp := do
  let place ← separatorPlace? cs
  let date ← date? (cs.take place)
  match cs.drop place with
  | [] => return ⟨date, .midnight, none⟩
  | _ :: rest =>
    let (clock, offset?) ← timeOfDay? rest
    return ⟨date, clock, offset?⟩

/-- Reads a sound date with a time, or says what is wrong. -/
def Stamp.ofText (text : String) : Except StampFault Stamp :=
  match read? text.toList with
  | some stamp => stamp.check
  | none => .error (.unreadable (Json.shownText text))

end Schemata.Time
