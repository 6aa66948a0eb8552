import Schemata.Time.Calendar

/-! Points in time, counted in microseconds, and their written form. -/

namespace Schemata

/-- Microseconds since the start of 1970. -/
structure Instant where
  micros : Int
  deriving DecidableEq, Repr, Inhabited

namespace Time

/-- A number with at least so many digits. -/
def padded (width n : Nat) : String :=
  let digits := Nat.toDigits 10 n
  .ofList (List.replicate (width - digits.length) '0' ++ digits)

/-- A time of day, its fraction written only when there is one. -/
def clockText (hour minute second micro : Nat) : String :=
  let fraction := if micro = 0 then "" else "." ++ padded 6 micro
  s!"{padded 2 hour}:{padded 2 minute}:{padded 2 second}{fraction}"

/-- A date with all digits of its parts. -/
def Date.text (d : Date) : String :=
  s!"{padded 4 d.year.toNat}-{padded 2 d.month}-{padded 2 d.day}"

end Time

namespace Instant

def ofSeconds (seconds : Int) : Instant := ⟨seconds * 1000000⟩

def plusMicros (t : Instant) (micros : Int) : Instant := ⟨t.micros + micros⟩

def plusSeconds (t : Instant) (seconds : Int) : Instant := t.plusMicros (seconds * 1000000)

def plusMinutes (t : Instant) (minutes : Int) : Instant := t.plusSeconds (minutes * 60)

instance : LE Instant := ⟨fun a b => a.micros ≤ b.micros⟩
instance : LT Instant := ⟨fun a b => a.micros < b.micros⟩
instance (a b : Instant) : Decidable (a ≤ b) := inferInstanceAs (Decidable (a.micros ≤ b.micros))
instance (a b : Instant) : Decidable (a < b) := inferInstanceAs (Decidable (a.micros < b.micros))

/-- Date and time of day at the prime meridian. -/
def text (t : Instant) : String :=
  let dayLength : Int := 86400000000
  let date := Time.Date.ofDays (t.micros.fdiv dayLength)
  let rest := (t.micros.fmod dayLength).toNat
  let seconds := rest / 1000000
  let clock :=
    Time.clockText (seconds / 3600) (seconds / 60 % 60) (seconds % 60) (rest % 1000000)
  s!"{date.text}T{clock}+00:00"

end Instant

end Schemata
