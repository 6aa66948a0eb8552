import Schemata.History.Trace
import Schemata.Provisioning.Execution

/-! Provisioning: only what the compiler makes of the very schema is run, and every run leaves a
trace. -/

namespace Schemata

open Ddl

/-- What is handed in to be run: a compilation as the compiler gave it, one that was changed
afterwards, or something else. -/
inductive Submission where
  | compiled (compilation : Compilation)
  | altered (options : Options)
  | other (kind : String)
  deriving DecidableEq

/-- Why there is no result: the submission is not run, the database cannot be connected to, or the
run cannot be traced because a schema cannot be written out. -/
inductive ProvisionError where
  | notCompiled (kind : String)
  | uncompilable (error : CompileError)
  | mismatch
  | unconnected (fault : EngineFault)
  | untraceable
  deriving DecidableEq

def ProvisionError.problem : ProvisionError → Problem
  | .notCompiled kind => .failure
    (.provisioning s!"Provisioning accepts compiled DDL only, got {kind}" none none)
  | .uncompilable error => .failure (.compilation error.message)
  | .mismatch => .failure
    (.provisioning "Compiled DDL does not match the schema being provisioned" none none)
  | .unconnected fault => .failure (.database fault.error)
  | .untraceable => .tooDeep

/-- Accepts a submission only if it is what the compiler makes of the schema. -/
def verify (limits : Limits) (submission : Submission) (schema : Schema) :
    Except ProvisionError Compilation :=
  let fresh (options : Options) : Except ProvisionError Compilation :=
    (compile limits options schema).mapError .uncompilable
  match submission with
  | .other kind => .error (.notCompiled kind)
  | .altered options => do
    let _ ← fresh options
    throw .mismatch
  | .compiled compilation => do
    let expected ← fresh compilation.options
    if expected = compilation then return expected else throw .mismatch

/-- Who asks for a run and why, and the schema that was live before. -/
structure ProvisioningContext where
  scope : Scope
  intent : String
  precedent? : Option String
  before? : Option Schema

/-- The intent when none is given. -/
def usualIntent : String := "Provision schema"

/-- What became of a submission that was run. -/
structure Provision where
  report : ExecutionReport
  traceId? : Option String
  deriving DecidableEq

namespace Provision

def succeeded (p : Provision) : Bool := p.report.succeeded

def toJson (p : Provision) : Json :=
  .obj [("success", .bool p.succeeded), ("tables_created", Json.ofStrings p.report.created),
    ("errors", .arr (p.report.faults.map fun f => f.failure.record)),
    ("sql_executed", Json.ofStrings p.report.executed),
    ("strategy", .str p.report.execution.word),
    ("trace_id", Json.ofOption .str p.traceId?)]

end Provision

/-- What is traced of a run. -/
def ExecutionReport.decision (r : ExecutionReport) (schema : Schema)
    (context : ProvisioningContext) : Decision where
  scope := context.scope
  intent := context.intent
  action := "provision"
  precedent? := context.precedent?
  version := schema.version
  before := Json.ofOption Schema.payload context.before?
  after := schema.payload
  details := .obj [("strategy", .str r.execution.word),
    ("tables_created", Json.ofStrings r.created),
    ("errors", Json.ofStrings (r.faults.map fun f => f.failure.text))]

/-- How compilations are provisioned. -/
structure Provisioner where
  limits : Limits
  execution : Execution
  engine : Engine
  /-- Whether runs are traced. -/
  traced : Bool

/-- Whether a run on a schema can be traced: the schemas before and after it are written out. -/
def ProvisioningContext.isTraceable (context : ProvisioningContext) (schema : Schema) : Bool :=
  context.before?.all Schema.isWritable && schema.isWritable

/-- Runs a submission that matches its schema and traces the run. A run that cannot be traced took
place all the same. -/
def Provisioner.provision (p : Provisioner) (now : Instant) (log : EngineLog) (traces : TraceLog)
    (submission : Submission) (schema : Schema) (context : ProvisioningContext) :
    EngineLog × TraceLog × Except ProvisionError Provision :=
  match verify p.limits submission schema with
  | .error e => (log, traces, .error e)
  | .ok compilation =>
    match p.execution.execute p.engine log compilation with
    | (log, .error fault) => (log, traces, .error (.unconnected fault))
    | (log, .ok report) =>
      if !p.traced then (log, traces, .ok ⟨report, none⟩)
      else if !context.isTraceable schema then (log, traces, .error .untraceable)
      else
        let (traces, trace) := traces.append now (report.decision schema context)
        (log, traces, .ok ⟨report, some trace.id⟩)

end Schemata
