import Schemata.Time.Instant

/-! Dates with a time of day and a distance from the prime meridian, as they are handed in. Their
parts are checked one after the other. -/

namespace Schemata.Time

/-- Microseconds as days, seconds and microseconds, the days alone perhaps negative; parts that are
zero are not shown. -/
def spanShown (micros : Int) : String :=
  let dayLength : Int := 86400000000
  let rest := micros.fmod dayLength
  let parts := [("days", micros.fdiv dayLength), ("seconds", rest / 1000000),
    ("microseconds", rest % 1000000)].filter fun part => part.2 != 0
  let texts := parts.map fun (name, n) => s!"{name}={n}"
  let inside := if texts.isEmpty then "0" else ", ".intercalate texts
  s!"datetime.timedelta({inside})"

/-- What can be wrong with a date and time. -/
inductive StampFault where
  | unreadable (text : String)
  | year (n : Int)
  | month
  | day
  | hour
  | minute
  | second
  | offset (micros : Int)
  deriving DecidableEq, Repr

def StampFault.message : StampFault → String
  | .unreadable shown => s!"Invalid isoformat string: {shown}"
  | .year n => s!"year {n} is out of range"
  | .month => "month must be in 1..12"
  | .day => "day is out of range for month"
  | .hour => "hour must be in 0..23"
  | .minute => "minute must be in 0..59"
  | .second => "second must be in 0..59"
  | .offset micros =>
    "offset must be a timedelta strictly between -timedelta(hours=24) and timedelta(hours=24), not "
      ++ s!"{spanShown micros}."

/-- A day that the calendar has. -/
def Date.check (d : Date) : Except StampFault Date :=
  if d.year < 1 ∨ 9999 < d.year then .error (.year d.year)
  else if d.month < 1 ∨ 12 < d.month then .error .month
  else if d.day < 1 ∨ monthLength d.year d.month < d.day then .error .day
  else .ok d

def Date.shown (d : Date) : String := s!"datetime.date({d.year}, {d.month}, {d.day})"

/-- A time of day. -/
structure Clock where
  hour : Nat
  minute : Nat
  second : Nat
  micro : Nat
  deriving DecidableEq, Repr

def Clock.midnight : Clock := ⟨0, 0, 0, 0⟩

def Clock.check (c : Clock) : Except StampFault Clock :=
  if 23 < c.hour then .error .hour
  else if 59 < c.minute then .error .minute
  else if 59 < c.second then .error .second
  else .ok c

/-- A time of day taken as a span. -/
def Clock.micros (c : Clock) : Int :=
  ((c.hour * 3600 + c.minute * 60 + c.second) * 1000000 + c.micro : Nat)

/-- A date with a time of day and, when it is known, the distance from the prime meridian in
microseconds. -/
structure Stamp where
  date : Date
  clock : Clock
  offset? : Option Int
  deriving DecidableEq, Repr

/-- Distances from the prime meridian are shorter than a day. -/
def checkOffset (micros : Int) : Except StampFault Int :=
  if micros.natAbs < 86400000000 then .ok micros else .error (.offset micros)

namespace Stamp

/-- A stamp whose parts are sound; the distance from the prime meridian is looked at first. -/
def check (s : Stamp) : Except StampFault Stamp := do
  let _ ← s.offset?.mapM checkOffset
  let _ ← s.date.check
  let _ ← s.clock.check
  return s

private def offsetText (micros : Int) : String :=
  let n := micros.natAbs
  let (seconds, micro) := (n / 1000000, n % 1000000)
  let fraction := if micro = 0 then "" else "." ++ padded 6 micro
  let tail := if n % 60000000 = 0 then "" else ":" ++ padded 2 (seconds % 60) ++ fraction
  (if micros < 0 then "-" else "+")
    ++ s!"{padded 2 (seconds / 3600)}:{padded 2 (seconds / 60 % 60)}{tail}"

/-- The normal form: date, `T`, time of day, and the distance with its sign. -/
def text (s : Stamp) : String :=
  let c := s.clock
  s!"{s.date.text}T{clockText c.hour c.minute c.second c.micro}" ++ s.offset?.elim "" offsetText

/-- The form that payloads have: at the prime meridian itself the distance is a `Z`. -/
def written (s : Stamp) : String :=
  if s.offset? = some 0 then { s with offset? := none }.text ++ "Z" else s.text

private def zoneShown (micros : Int) : String :=
  if micros = 0 then "datetime.timezone.utc" else s!"datetime.timezone({spanShown micros})"

/-- A stamp as messages show it, with seconds and microseconds only as far as there are any. -/
def shown (s : Stamp) : String :=
  let c := s.clock
  let seconds :=
    if c.micro ≠ 0 then [c.second, c.micro] else if c.second ≠ 0 then [c.second] else []
  let numbers := [c.hour, c.minute] ++ seconds
  let zone := s.offset?.elim "" fun micros => ", tzinfo=" ++ zoneShown micros
  s!"datetime.datetime({s.date.year}, {s.date.month}, {s.date.day}, "
    ++ ", ".intercalate (numbers.map toString) ++ zone ++ ")"

end Stamp

end Schemata.Time
