import Schemata.History.Version

/-! The log of decisions: what was asked for, what was done, and the schema before and after. -/

namespace Schemata

/-- What a trace records of one action. -/
structure Decision where
  scope : Scope
  intent : String
  action : String
  precedent? : Option String
  version : String
  before : Json
  after : Json
  details : Json
  deriving DecidableEq

/-- A decision with its identifier and its time. -/
structure Trace where
  id : String
  decision : Decision
  time : Instant
  deriving DecidableEq

def Trace.toJson (t : Trace) : Json :=
  let d := t.decision
  .obj [("id", .str t.id), ("project_id", Json.ofOption .str d.scope.project?),
    ("user_id", .str d.scope.user), ("intent", .str d.intent), ("action", .str d.action),
    ("precedent", Json.ofOption .str d.precedent?), ("version", .str d.version),
    ("schema_before", d.before), ("schema_after", d.after), ("details", d.details),
    ("timestamp", .str t.time.text)]

/-- All traces in the order in which they came in, and how many identifiers were given out. -/
structure TraceLog where
  rows : List Trace
  issued : Nat
  deriving DecidableEq

namespace TraceLog

def empty : TraceLog := ⟨[], 0⟩

def append (log : TraceLog) (now : Instant) (decision : Decision) : TraceLog × Trace :=
  let issued := log.issued + 1
  let trace : Trace := ⟨s!"t{issued}", decision, now⟩
  (⟨log.rows ++ [trace], issued⟩, trace)

/-- The traces of a scope, the latest time first; of equal times in the order in which they came. -/
def latest (log : TraceLog) (scope : Scope) (limit : Int) : List Trace :=
  let rows := log.rows.filter fun row => row.decision.scope == scope
  upTo limit (rows.mergeSort fun a b => decide (b.time ≤ a.time))

/-- Removes the traces of a project and counts them. -/
def deleteProject (log : TraceLog) (project? : Option String) : TraceLog × Nat :=
  let kept := log.rows.filter fun row => row.decision.scope.project? != project?
  (⟨kept, log.issued⟩, log.rows.length - kept.length)

end TraceLog

end Schemata
