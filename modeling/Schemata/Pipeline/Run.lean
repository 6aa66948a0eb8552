import Schemata.Lock.Table
import Schemata.Provisioning.Provision
import Schemata.Resource.Publication

/-! The way of a candidate schema from its check to its publication. Every stage runs only after the
one before it succeeded; the lock of the project is held from the check until the version is
stored. -/

namespace Schemata

/-- What runs read and change. -/
structure Workspace where
  registry : Registry
  versions : VersionStore
  traces : TraceLog
  locks : LockTable

def Workspace.empty : Workspace := ⟨[], .empty, .empty, []⟩

/-- How runs are carried out. Without lock terms no locks are taken. -/
structure Pipeline where
  provisioner : Provisioner
  options : Ddl.Options
  lockTerms? : Option LockTerms
  convert : Converter

/-- What is asked for besides the schema itself. -/
structure Errand where
  scope : Scope
  description : String
  intent : String
  precedent? : Option String
  deriving DecidableEq, Repr

/-- The outcome of a run, by the last stage that it reached. -/
inductive RunOutcome where
  | rejected (validation : Validation)
  | unprovisioned (validation : Validation) (compilation : Ddl.Compilation) (provision : Provision)
  | published (validation : Validation) (compilation : Ddl.Compilation) (provision : Provision)
    (version : Version) (registration : Registration)
  deriving DecidableEq

namespace RunOutcome

def stage : RunOutcome → String
  | rejected _ => "validate"
  | unprovisioned .. => "provision"
  | published .. => "publish"

def succeeded : RunOutcome → Bool
  | published .. => true
  | _ => false

def validation : RunOutcome → Validation
  | rejected v | unprovisioned v .. | published v .. => v

def compilation? : RunOutcome → Option Ddl.Compilation
  | rejected _ => none
  | unprovisioned _ c _ | published _ c .. => some c

def provision? : RunOutcome → Option Provision
  | rejected _ => none
  | unprovisioned _ _ p | published _ _ p .. => some p

def version? : RunOutcome → Option Version
  | published _ _ _ version _ => some version
  | _ => none

def registration? : RunOutcome → Option Registration
  | published _ _ _ _ registration => some registration
  | _ => none

def toJson (o : RunOutcome) : Json :=
  .obj [("success", .bool o.succeeded), ("stage", .str o.stage),
    ("validation", .obj [("passed", .bool o.validation.passed),
      ("errors", .arr (o.validation.violations.map fun v => v.report.toJson))]),
    ("fingerprint", Json.ofOption (fun c => .str (Ddl.Compilation.fingerprint c)) o.compilation?),
    ("provisioning", Json.ofOption Provision.toJson o.provision?),
    ("version", Json.ofOption Version.toJson o.version?),
    ("registration", Json.ofOption Registration.toJson o.registration?)]

end RunOutcome

/-- Everything that a run gives back: the workspace and the engine's calls after it, and the
outcome. -/
structure RunResult where
  workspace : Workspace
  log : EngineLog
  outcome : Except Problem RunOutcome

namespace Pipeline

/-- Takes the lock of the project, when there is one and locks are in use. -/
def enter (p : Pipeline) (now : Instant) (locks : LockTable) (scope : Scope) :
    Except LockError LockTable :=
  match p.lockTerms?, scope.project? with
  | some terms, some project => do
    let (locks, _) ← locks.enter terms now project scope.user none
    return locks
  | _, _ => .ok locks

/-- Gives the lock back that was taken. -/
def leave (p : Pipeline) (locks : LockTable) (scope : Scope) : LockTable :=
  match p.lockTerms?, scope.project? with
  | some _, some project => locks.leave project scope.user
  | _, _ => locks

/-- Stores a provisioned schema and publishes its resources in place of those of the version
before. -/
def complete (p : Pipeline) (now : Instant) (w : Workspace) (log : EngineLog)
    (validation : Validation) (compilation : Ddl.Compilation) (provision : Provision)
    (schema : Schema) (errand : Errand) (before? : Option Schema) : RunResult :=
  let description := if errand.description = "" then errand.intent else errand.description
  match VersionStore.create p.provisioner.limits now w.versions (.schema schema) errand.scope
      description with
  | (versions, .error problem) => ⟨{ w with versions }, log, .error problem⟩
  | (versions, .ok version) =>
    let (registry, registration) := w.registry.publish p.convert now schema before?
    ⟨{ w with versions, registry }, log,
      .ok (.published validation compilation provision version registration)⟩

/-- Compiles a checked schema and provisions it. -/
def produce (p : Pipeline) (now : Instant) (w : Workspace) (log : EngineLog)
    (validation : Validation) (schema : Schema) (errand : Errand) : RunResult :=
  match Ddl.compile p.provisioner.limits p.options schema with
  | .error e => ⟨w, log, .error (.failure (.compilation e.message))⟩
  | .ok compilation =>
    let before? := (w.versions.active? errand.scope).map (·.snapshot)
    let context : ProvisioningContext :=
      ⟨errand.scope, errand.intent, errand.precedent?, before?⟩
    match p.provisioner.provision now log w.traces (.compiled compilation) schema context with
    | (log, _, .error e) => ⟨w, log, .error e.problem⟩
    | (log, traces, .ok provision) =>
      let w := { w with traces }
      if provision.succeeded then
        p.complete now w log validation compilation provision schema errand before?
      else ⟨w, log, .ok (.unprovisioned validation compilation provision)⟩

/-- Takes a candidate through all stages. -/
def run (p : Pipeline) (now : Instant) (w : Workspace) (log : EngineLog) (candidate : Candidate)
    (errand : Errand) : RunResult :=
  let validation := validate candidate p.provisioner.limits
  match validation.accepted? with
  | none => ⟨w, log, .ok (.rejected validation)⟩
  | some schema =>
    match p.enter now w.locks errand.scope with
    | .error e => ⟨w, log, .error e.problem⟩
    | .ok locks =>
      let result := p.produce now { w with locks } log validation schema errand
      let after := result.workspace
      { result with workspace := { after with locks := p.leave after.locks errand.scope } }

/-- What is asked for when a stored version shall be live again. -/
def restoration (version : Version) (user? description? : Option String) : Errand where
  scope := ⟨version.scope.project?, (user?.filter (· != "")).getD version.scope.user⟩
  description := (description?.filter (· != "")).getD
    s!"Restored version {version.snapshot.version} ({version.id})"
  intent := "Rollback"
  precedent? := some version.id

/-- Takes a stored version through all stages again; it becomes a new version. -/
def restore (p : Pipeline) (now : Instant) (w : Workspace) (log : EngineLog) (id : String)
    (user? description? : Option String) : RunResult :=
  match w.versions.version id with
  | .error failure => ⟨w, log, .error (.failure failure)⟩
  | .ok version =>
    p.run now w log (.schema version.snapshot) (restoration version user? description?)

end Pipeline

end Schemata
