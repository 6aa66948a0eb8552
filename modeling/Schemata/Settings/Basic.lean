import Schemata.Json.Basic
import Schemata.Rules.Basic

/-! What a deployment can set: bounds for schemas, names used in statements, how statements are run,
and how long calls and locks may last. -/

namespace Schemata

inductive Stage where
  | dev | staging | prod
  deriving DecidableEq, Repr

namespace Stage

def all : List Stage := [.dev, .staging, .prod]

def word : Stage → String
  | dev => "dev"
  | staging => "staging"
  | prod => "prod"

end Stage

/-- How the statements of a schema are run. -/
inductive Strategy where
  | auto | atomic | perEntity
  deriving DecidableEq, Repr

namespace Strategy

def all : List Strategy := [.auto, .atomic, .perEntity]

def word : Strategy → String
  | auto => "auto"
  | atomic => "atomic"
  | perEntity => "per_entity"

end Strategy

structure Settings where
  stage : Stage
  logLevel : String
  appName : String
  logToFile : Bool
  logDirectory : String
  logFieldLength : Int
  databaseUri : String
  limits : Limits
  principalExpression : String
  policyRole : String
  updatedAtFunction : String
  strategy : Strategy
  replyTimeout : Binary64
  historyWindow : Int
  lockMinutes : Int
  maxLockMinutes : Int
  versionListLimit : Int
  deriving DecidableEq, Repr

/-- The double sixty. -/
def sixtySeconds : Binary64 := .ofScientific 60 0

def Settings.standard : Settings where
  stage := .dev
  logLevel := "INFO"
  appName := "SchemaForge"
  logToFile := false
  logDirectory := "logs"
  logFieldLength := 2000
  databaseUri := "sqlite:///schema_forge_dev.db"
  limits := .standard
  principalExpression := "auth.uid()"
  policyRole := "authenticated"
  updatedAtFunction := "update_updated_at_column"
  strategy := .auto
  replyTimeout := sixtySeconds
  historyWindow := 5
  lockMinutes := 5
  maxLockMinutes := 10
  versionListLimit := 20

namespace Settings

/-- The database address, with the long name of the database in its scheme. -/
def databaseAddress (s : Settings) : String :=
  if "postgres://".toList.isPrefixOf s.databaseUri.toList then
    "postgresql://" ++ .ofList (s.databaseUri.toList.drop "postgres://".length)
  else s.databaseUri

/-- Why settings cannot be used together. -/
inductive Conflict where
  | productionDatabase (address : String)
  | lockTooShort
  | lockTooLong (minutes limit : Int)
  deriving DecidableEq, Repr

def Conflict.message : Conflict → String
  | productionDatabase address =>
    "Production environment requires PostgreSQL database. Database URL must start with "
      ++ s!"'postgresql', got: {String.ofList (address.toList.take 20)}..."
  | lockTooShort => "schema_lock_default_minutes must be at least 1"
  | lockTooLong minutes limit =>
    s!"schema_lock_default_minutes cannot exceed schema_lock_max_minutes ({minutes} > {limit})"

/-- The first conflict: production needs its own kind of database, and the usual time of a lock lies
between one minute and the longest time. -/
def conflict? (s : Settings) : Option Conflict :=
  if s.stage = .prod ∧ !"postgresql".toList.isPrefixOf s.databaseAddress.toList then
    some (.productionDatabase s.databaseAddress)
  else if s.lockMinutes < 1 then some .lockTooShort
  else if s.maxLockMinutes < s.lockMinutes then some (.lockTooLong s.lockMinutes s.maxLockMinutes)
  else none

def toJson (s : Settings) : Json :=
  .obj [("ENVIRONMENT", .str s.stage.word), ("LOG_LEVEL", .str s.logLevel),
    ("app_name", .str s.appName), ("log_to_file", .bool s.logToFile),
    ("log_file_dir", .str s.logDirectory), ("log_max_field_length", .int s.logFieldLength),
    ("database_uri", .str s.databaseUri), ("max_tables", .int s.limits.tables),
    ("max_columns_per_table", .int s.limits.columns),
    ("max_reference_depth", .int s.limits.depth),
    ("max_identifier_length", .int s.limits.nameLength),
    ("rls_principal_expression", .str s.principalExpression),
    ("rls_policy_role", .str s.policyRole),
    ("updated_at_function", .str s.updatedAtFunction),
    ("provisioning_strategy", .str s.strategy.word),
    ("ai_timeout_seconds", .double s.replyTimeout),
    ("refinement_history_window", .int s.historyWindow),
    ("schema_lock_default_minutes", .int s.lockMinutes),
    ("schema_lock_max_minutes", .int s.maxLockMinutes),
    ("version_list_limit", .int s.versionListLimit)]

end Settings

end Schemata
