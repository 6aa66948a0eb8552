import Schemata.Settings.Basic
import Schemata.Settings.Numeral
import Schemata.Shape.Decode
import Schemata.Text.LetterCase

/-! Settings out of environment variables. The case of a variable's name does not count. Most
variables are named after their field behind `SF_`; the others have names of their own, of which the
first that is set counts. -/

namespace Schemata

/-- Variables with their values; a later one replaces an earlier one of the same name. -/
abbrev Environment := List (String × String)

namespace Environment

/-- The value of a variable, its name in any case. -/
def value? (env : Environment) (name : String) : Option String :=
  (env.reverse.find? fun entry => Text.lower entry.1 == Text.lower name).map (·.2)

/-- The value of a variable of exactly this name. -/
def exact (env : Environment) (name : String) : Option String :=
  (env.reverse.find? fun entry => entry.1 == name).map (·.2)

/-- Reads a field from its variable, or from the first of its other variables that is set. Faults
show its own variable in any case. -/
def named {α : Type} (env : Environment) (name : String) (others : List String) (usual : α)
    (read : String → Checked α) : Checked α :=
  match (name :: others).findSome? env.value? with
  | some value => (read value).under (.key name)
  | none => .valid usual

/-- Reads a field from the variable named after it. Faults show the field. -/
def field {α : Type} (env : Environment) (name : String) (usual : α)
    (read : String → Checked α) : Checked α :=
  match env.value? ("SF_" ++ name) with
  | some value => (read value).under (.key name)
  | none => .valid usual

/-- One of a fixed set of words. -/
def word {α : Type} (all : List α) (spell : α → String) (value : String) : Checked α :=
  Decode.choice all spell (.str value)

def limits (env : Environment) : Checked Limits :=
  let usual := Limits.standard
  Limits.mk <$> env.field "max_tables" usual.tables Settings.integer
    <*> env.field "max_columns_per_table" usual.columns Settings.integer
    <*> env.field "max_reference_depth" usual.depth Settings.integer
    <*> env.field "max_identifier_length" usual.nameLength Settings.integer

/-- All fields, before they are looked at together. -/
def fields (env : Environment) : Checked Settings :=
  let usual := Settings.standard
  Settings.mk <$> env.named "ENVIRONMENT" [] usual.stage (word Stage.all Stage.word)
    <*> env.named "LOG_LEVEL" [] usual.logLevel .valid
    <*> env.field "app_name" usual.appName .valid
    <*> env.named "SF_LOG_TO_FILE" ["LOG_TO_FILE"] usual.logToFile Decode.booleanWord
    <*> env.named "SF_LOG_FILE_DIR" ["LOG_FILE_DIR"] usual.logDirectory .valid
    <*> env.field "log_max_field_length" usual.logFieldLength Settings.integer
    <*> env.named "SF_DATABASE__URI" ["SF_DATABASE_URI", "DATABASE_URL"] usual.databaseUri
      .valid
    <*> env.limits
    <*> env.field "rls_principal_expression" usual.principalExpression .valid
    <*> env.field "rls_policy_role" usual.policyRole .valid
    <*> env.field "updated_at_function" usual.updatedAtFunction .valid
    <*> env.field "provisioning_strategy" usual.strategy (word Strategy.all Strategy.word)
    <*> env.field "ai_timeout_seconds" usual.replyTimeout Settings.number
    <*> env.field "refinement_history_window" usual.historyWindow Settings.integer
    <*> env.field "schema_lock_default_minutes" usual.lockMinutes Settings.integer
    <*> env.field "schema_lock_max_minutes" usual.maxLockMinutes Settings.integer
    <*> env.field "version_list_limit" usual.versionListLimit Settings.integer

/-- The settings that the variables describe, when every field can be read and none conflict. -/
def settings (env : Environment) : Checked Settings :=
  match env.fields with
  | .invalid errors => .invalid errors
  | .valid s => match s.conflict? with
    | some conflict => .fail (.rejected conflict.message)
    | none => .valid s

end Environment

end Schemata
