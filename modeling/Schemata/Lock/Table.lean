import Schemata.Problem
import Schemata.Settings.Basic
import Schemata.Time.Instant

/-! Edit locks. A project has at most one lock; it belongs to one user and lapses by itself. A
lapsed lock counts as none. -/

namespace Schemata

structure Lock where
  project : String
  user : String
  since : Instant
  expires : Instant
  deriving DecidableEq, Repr

namespace Lock

/-- A lock has lapsed from its end on. -/
def isExpired (lock : Lock) (now : Instant) : Bool := lock.expires ≤ now

def toJson (lock : Lock) : Json :=
  .obj [("project_id", .str lock.project), ("user_id", .str lock.user),
    ("locked_at", .str lock.since.text), ("expires_at", .str lock.expires.text)]

end Lock

/-- How many minutes a lock lasts when nothing is said, and at most. -/
structure LockTerms where
  usual : Int
  longest : Int
  deriving DecidableEq, Repr

def LockTerms.ofSettings (s : Settings) : LockTerms := ⟨s.lockMinutes, s.maxLockMinutes⟩

/-- The least number of minutes that a lock lasts. -/
def leastLockMinutes : Int := 1

/-- Why a lock is not given. -/
inductive LockError where
  | duration (longest minutes : Int)
  | held (lock : Lock)
  | notHeld (project : String) (heldBy? : Option String)
  deriving DecidableEq, Repr

def LockError.message : LockError → String
  | duration longest minutes =>
    s!"Lock duration must be between {leastLockMinutes} and {longest} minutes, got {minutes}"
  | held lock => s!"Project '{lock.project}' is locked by another user"
  | notHeld project _ => s!"Cannot extend lock on '{project}': not held by this user"

def LockError.problem (e : LockError) : Problem :=
  match e with
  | duration .. => .argument e.message
  | held lock => .failure
    (.concurrency e.message (some lock.project) (some lock.user) (.str lock.expires.text))
  | notHeld project heldBy? => .failure (.concurrency e.message (some project) heldBy? .null)

/-- The rows of all locks, lapsed ones included until they are cleaned up. -/
abbrev LockTable := List Lock

namespace LockTable

/-- The lock of a project, if it has not lapsed. -/
def lock? (table : LockTable) (now : Instant) (project : String) : Option Lock :=
  (table.find? fun row => row.project == project).filter fun row => !row.isExpired now

/-- The locks of other projects. -/
def others (table : LockTable) (project : String) : LockTable :=
  table.filter fun row => row.project != project

/-- Takes the lock of a project, or sets a new end for the lock that the user already has. -/
def acquire (terms : LockTerms) (now : Instant) (table : LockTable) (project user : String)
    (minutes? : Option Int) : Except LockError (LockTable × Lock) :=
  let minutes := minutes?.getD terms.usual
  if minutes < leastLockMinutes ∨ terms.longest < minutes then
    .error (.duration terms.longest minutes)
  else
    let expires := now.plusMinutes minutes
    match table.lock? now project with
    | some lock =>
      if lock.user ≠ user then .error (.held lock)
      else
        let extended := { lock with expires }
        .ok (table.map fun row => if row.project = project then extended else row, extended)
    | none =>
      let lock : Lock := ⟨project, user, now, expires⟩
      .ok (table.others project ++ [lock], lock)

/-- Acquires a lock that the user has. The clock is read twice, once to see who has the lock and
once to acquire it. -/
def renew (terms : LockTerms) (seen now : Instant) (table : LockTable) (project user : String)
    (minutes? : Option Int) : Except LockError (LockTable × Lock) :=
  match table.lock? seen project with
  | some lock =>
    if lock.user = user then table.acquire terms now project user minutes?
    else .error (.notHeld project (some lock.user))
  | none => .error (.notHeld project none)

/-- Sets a new end for a lock that the user has. -/
def extend (terms : LockTerms) (now : Instant) (table : LockTable) (project user : String)
    (minutes? : Option Int) : Except LockError (LockTable × Lock) :=
  table.renew terms now now project user minutes?

/-- Gives a lock back, lapsed or not; tells whether the user had one. -/
def release (table : LockTable) (project user : String) : LockTable × Bool :=
  let kept := table.filter fun row => !(row.project == project && row.user == user)
  (kept, kept.length != table.length)

/-- Removes the lapsed locks and counts them. -/
def cleanup (table : LockTable) (now : Instant) : LockTable × Nat :=
  let kept := table.filter fun row => !row.isExpired now
  (kept, table.length - kept.length)

/-- Enters an edit block, which takes the lock. -/
def enter (terms : LockTerms) (now : Instant) (table : LockTable) (project user : String)
    (minutes? : Option Int) : Except LockError (LockTable × Lock) :=
  table.acquire terms now project user minutes?

/-- Leaves an edit block, which gives the lock back whatever happened inside. -/
def leave (table : LockTable) (project user : String) : LockTable :=
  (table.release project user).1

end LockTable

end Schemata
