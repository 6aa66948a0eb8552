import Schemata.Rules.Basic

/-! The ways in which a request can fail, each with its wording and its record for the log. -/

namespace Schemata

/-- The error that the database itself gave: its kind and its text. -/
structure EngineError where
  kind : String
  text : String
  deriving DecidableEq, Repr

/-- A failure of the schema service, or of the database behind it. -/
inductive Failure where
  | general (message : String)
  | validation (reports : List Report) (message? : Option String)
  | compilation (message : String)
  | provisioning (message : String) (table? : Option String) (cause? : Option EngineError)
  | service (message : String)
  | changeSet (message : String)
  | concurrency (message : String) (project? heldBy? : Option String) (expires : Json)
  | versionNotFound (id : String)
  /-- An error of the database that no stage takes for its own. -/
  | database (error : EngineError)
  deriving DecidableEq, Repr

namespace Failure

def name : Failure → String
  | general _ => "SchemaForgeError"
  | validation .. => "SchemaValidationError"
  | compilation _ => "CompilationError"
  | provisioning .. => "ProvisioningError"
  | service _ => "AIServiceError"
  | changeSet _ => "ChangeSetError"
  | concurrency .. => "ConcurrencyError"
  | versionNotFound _ => "VersionNotFoundError"
  | database error => error.kind

/-- The kind that the record of a failure shows. -/
def kind : Failure → String
  | validation .. => "ValidationError"
  | failure => failure.name

/-- The usual text for a schema that breaks rules: the count and the first five messages. -/
def validationText (reports : List Report) : String :=
  s!"Schema validation failed with {reports.length} error(s)"
    ++ if reports.isEmpty then ""
      else ": " ++ "; ".intercalate ((reports.take 5).map (·.message))

def text : Failure → String
  | validation reports message? => message?.getD (validationText reports)
  | provisioning message (some table) _ =>
    if table = "" then message else s!"Failed to provision '{table}': {message}"
  | general message | compilation message | provisioning message none _ | service message
  | changeSet message | concurrency message .. => message
  | versionNotFound id => s!"Schema version '{id}' not found"
  | database error => error.text

/-- What a failure records beside its kind and its text. -/
def details : Failure → Members
  | validation reports _ => [("errors", .arr (reports.map Report.toJson))]
  | provisioning _ table? cause? =>
    ("table", Json.ofOption .str table?) :: match cause? with
      | some cause => [("original_error_type", .str cause.kind),
          ("original_error_message", .str cause.text)]
      | none => []
  | concurrency _ project? heldBy? expires =>
    [("project_id", Json.ofOption .str project?), ("held_by", Json.ofOption .str heldBy?),
      ("expires_at", expires)]
  | _ => []

def record (f : Failure) : Json :=
  .obj ([("error_type", .str f.kind), ("message", .str f.text)] ++ f.details)

/-- A version that is not there is also a failed look-up. -/
def isLookup : Failure → Bool
  | versionNotFound _ => true
  | _ => false

end Failure

/-- Why a request has no answer: wrong shape, a failure of the service, an argument out of bounds, a
call at the wrong time, a name that is not known, or data nested too deep to be written out. -/
inductive Problem where
  | shape (errors : List ShapeError)
  | failure (failure : Failure)
  | argument (message : String)
  | state (message : String)
  | unknownName (message : String)
  | tooDeep
  deriving DecidableEq, Repr

end Schemata
