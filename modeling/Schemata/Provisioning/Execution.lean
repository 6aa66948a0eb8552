import Schemata.Ddl.Compilation
import Schemata.Provisioning.Engine

/-! Ways to run a compilation: the whole script at once, or every table in a transaction of its
own. -/

namespace Schemata

/-- What a database can do. -/
structure Capabilities where
  dialect : String
  multiStatement : Bool
  transactionalDdl : Bool
  deriving DecidableEq, Repr

/-- Only two dialects are known to run definitions inside transactions, and only one of them takes a
script in one call. -/
def Capabilities.ofDialect (dialect : String) : Capabilities :=
  ⟨dialect, dialect == "postgresql", dialect == "postgresql" || dialect == "sqlite"⟩

/-- How a compilation is run. -/
inductive Execution where
  | atomic
  | perEntity
  deriving DecidableEq, Repr

def Execution.word : Execution → String
  | .atomic => "atomic"
  | .perEntity => "per_entity"

/-- The whole script needs both abilities. -/
def Strategy.execution (strategy : Strategy) (c : Capabilities) : Execution :=
  match strategy with
  | .atomic => .atomic
  | .perEntity => .perEntity
  | .auto => if c.multiStatement && c.transactionalDdl then .atomic else .perEntity

/-- The strategy that a word names; without a word the usual one. -/
def Strategy.choose (usual : Strategy) (word : String) : Except Problem Strategy :=
  if word = "" then .ok usual
  else match Strategy.all.find? fun strategy => strategy.word == word with
    | some strategy => .ok strategy
    | none => .error (.argument s!"Unknown provisioning strategy: {word}")

/-- A table that could not be made, or what all tables need when no table is named. -/
structure ProvisioningFault where
  table? : Option String
  fault : EngineFault
  deriving DecidableEq, Repr

def ProvisioningFault.failure (f : ProvisioningFault) : Failure :=
  .provisioning f.fault.description f.table? (some f.fault.error)

/-- What became of a run: the tables made, the faults, and the statements that took effect. -/
structure ExecutionReport where
  execution : Execution
  created : List String
  faults : List ProvisioningFault
  executed : List String
  deriving DecidableEq, Repr

namespace ExecutionReport

def succeeded (r : ExecutionReport) : Bool := r.faults.isEmpty

end ExecutionReport

open Ddl

/-- Runs the whole script on one connection. Either every table is made or none. A connection that
is refused is in nobody's report: the fault ends the run. -/
def executeAtomic (engine : Engine) (log : EngineLog) (c : Compilation) :
    EngineLog × Except EngineFault ExecutionReport :=
  match engine.call log .connect with
  | (log, some fault) => (log, .error fault)
  | (log, none) =>
    match engine.script log c.text with
    | (log, some fault) =>
      (log, .ok ⟨.atomic, [], c.tableNames.map fun name => ⟨some name, fault⟩, []⟩)
    | (log, none) => (log, .ok ⟨.atomic, c.tableNames, [], [c.text]⟩)

/-- Runs the statements of one table; a fault is noted and the run goes on. -/
def executeTable (engine : Engine) (c : Compilation) (state : EngineLog × ExecutionReport)
    (name : String) : EngineLog × ExecutionReport :=
  let (log, report) := state
  let statements := ((c.forTable? name).getD []).map Statement.sql
  match engine.transact log statements with
  | (log, some fault) => (log, { report with faults := report.faults ++ [⟨some name, fault⟩] })
  | (log, none) => (log, { report with
      created := report.created ++ [name]
      executed := report.executed ++ statements })

/-- Runs what the tables share, in a transaction of its own. -/
def executeShared (engine : Engine) (log : EngineLog) (c : Compilation) :
    EngineLog × ExecutionReport :=
  let statements := c.shared.map Statement.sql
  match engine.transact log statements with
  | (log, some fault) => (log, ⟨.perEntity, [], [⟨none, fault⟩], []⟩)
  | (log, none) => (log, ⟨.perEntity, [], [], statements⟩)

/-- Runs every table in a transaction of its own, each after the tables that it points at. -/
def executePerEntity (engine : Engine) (log : EngineLog) (c : Compilation) :
    EngineLog × ExecutionReport :=
  c.dependencyOrder.foldl (executeTable engine c) (executeShared engine log c)

def Execution.execute (execution : Execution) (engine : Engine) (log : EngineLog)
    (c : Compilation) : EngineLog × Except EngineFault ExecutionReport :=
  match execution with
  | .atomic => executeAtomic engine log c
  | .perEntity => (executePerEntity engine log c).map id .ok

end Schemata
