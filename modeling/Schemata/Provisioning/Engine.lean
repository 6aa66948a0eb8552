import Schemata.Problem
import Schemata.Text.Blank

/-! The database that statements are put to, seen from outside: the calls it gets, in order, and
those that it refuses. -/

namespace Schemata

/-- One thing asked of the database. -/
inductive EngineCall where
  | connect
  | close
  | begin
  | commit
  | rollback
  | run (sql : String)
  deriving DecidableEq, Repr

/-- Why a call is refused: the kind and the text of the fault, and the text of the fault behind it
when there is one. -/
structure EngineFault where
  kind : String
  text : String
  inner? : Option String
  deriving DecidableEq, Repr

/-- What a fault says, without blanks around it. -/
def EngineFault.description (f : EngineFault) : String := Text.strip (f.inner?.getD f.text)

def EngineFault.error (f : EngineFault) : EngineError := ⟨f.kind, f.text⟩

/-- The calls that an engine has got, the first one first. -/
abbrev EngineLog := List EngineCall

/-- An engine refuses a call or not; the calls before it may decide. -/
abbrev Engine := EngineLog → EngineCall → Option EngineFault

/-- The engine that refuses nothing. -/
def Engine.willing : Engine := fun _ _ => none

namespace Engine

/-- Makes one call. -/
def call (engine : Engine) (log : EngineLog) (c : EngineCall) : EngineLog × Option EngineFault :=
  (log ++ [c], engine log c)

/-- Runs statements in order; the first one that is refused ends it. -/
def runAll (engine : Engine) (log : EngineLog) : List String → EngineLog × Option EngineFault
  | [] => (log, none)
  | sql :: rest =>
    match engine.call log (.run sql) with
    | (log, some fault) => (log, some fault)
    | (log, none) => runAll engine log rest

/-- Runs statements in a transaction of their own, and rolls it back if one of them or the commit is
refused. A transaction that cannot be opened is not rolled back. -/
def transact (engine : Engine) (log : EngineLog) (statements : List String) :
    EngineLog × Option EngineFault :=
  match engine.call log .begin with
  | (log, some fault) => (log, some fault)
  | (log, none) =>
    match engine.runAll log statements with
    | (log, some fault) => (log ++ [.rollback], some fault)
    | (log, none) =>
      match engine.call log .commit with
      | (log, some fault) => (log ++ [.rollback], some fault)
      | (log, none) => (log, none)

/-- Runs a script that opens and commits its own transaction, on a connection that is closed
afterwards. If it is refused, the transaction is rolled back, and a fault of that is passed over. -/
def script (engine : Engine) (log : EngineLog) (sql : String) : EngineLog × Option EngineFault :=
  match engine.call log (.run sql) with
  | (log, some fault) =>
    let (log, _) := engine.call log (.run "ROLLBACK")
    (log ++ [.close], some fault)
  | (log, none) => (log ++ [.close], none)

end Engine

end Schemata
