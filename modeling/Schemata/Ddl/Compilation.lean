import Schemata.Ddl.Table
import Schemata.Digest.Sha256
import Schemata.Graph.Order
import Schemata.Rules.Validation

/-! The statements of a whole schema. They can run as one script, stage by stage over all tables, or
table by table in dependency order. -/

namespace Schemata.Ddl

/-- A compiled schema. -/
structure Compilation where
  version : String
  options : Options
  tables : List TableDdl
  deriving DecidableEq, Repr

/-- Why a schema is not compiled. -/
inductive CompileError where
  | notSchema (kind : String)
  | invalid (violations : List Violation)
  | requiredColumn (table column : String)
  deriving DecidableEq, Repr

def CompileError.message : CompileError → String
  | notSchema kind => s!"Compiler accepts EntitySchema objects only, got {kind}"
  | invalid violations =>
    "Refusing to compile a schema that fails validation: "
      ++ "; ".intercalate ((violations.take 5).map Violation.message)
  | requiredColumn table column =>
    s!"Cannot add non-nullable column '{column}' to '{table}' without a default value"

namespace Compilation

/-- Compiles every table, in the order of the schema. -/
def ofSchema (options : Options) (schema : Schema) : Compilation :=
  ⟨schema.version, options, schema.tables.map (TableDdl.ofTable options)⟩

def tableNames (c : Compilation) : List String := c.tables.map (·.name)

/-- What every table depends on: the function behind the triggers. -/
def shared (c : Compilation) : List Statement := [.createFunction c.options.updatedAtFunction]

/-- The stages of the script, each with its title. -/
def stages (c : Compilation) : List (String × List Statement) := [
  ("Create tables", c.tables.map (·.createTable)),
  ("Add foreign key constraints", c.tables.flatMap (·.foreignKeys)),
  ("Create indexes", c.tables.flatMap (·.indexes)),
  ("Enable row level security and isolation policies", c.tables.flatMap (·.rowSecurity)),
  ("Create updated_at triggers", c.tables.flatMap (·.triggers))]

/-- All statements in the order of the script. -/
def statements (c : Compilation) : List Statement := c.shared ++ c.stages.flatMap (·.2)

/-- The comment lines in front of the script. -/
def header (c : Compilation) : List String := [
  "-- SchemaForge generated schema v" ++ c.version,
  "-- Tables: " ++ ", ".intercalate c.tableNames,
  "-- DO NOT MANUALLY EDIT"]

/-- A stage after a blank line and its title; nothing for a stage without statements. -/
def stageParts (stage : String × List Statement) : List String :=
  if stage.2.isEmpty then [] else "" :: ("-- " ++ stage.1) :: stage.2.map Statement.sql

/-- The parts of the script, each starting a line. -/
def parts (c : Compilation) : List String :=
  c.header ++ ["", "BEGIN;", "", "-- Function to auto-update updated_at timestamp"]
    ++ c.shared.map Statement.sql ++ c.stages.flatMap stageParts ++ ["", "COMMIT;", ""]

/-- The script, one transaction from `BEGIN` to `COMMIT`. -/
def text (c : Compilation) : String := "\n".intercalate c.parts

/-- The hash of the script. -/
def fingerprint (c : Compilation) : String := Sha256.hexDigest c.text

/-- The statements of the first table of a name. -/
def forTable? (c : Compilation) (name : String) : Option (List Statement) :=
  (c.tables.find? (·.name == name)).map TableDdl.statements

/-- The tables, each after the tables that it points at. -/
def dependencyOrder (c : Compilation) : List String :=
  Graph.dependencyOrder (.ofList (c.tables.map fun t => (t.name, t.references)))

/-- How many statements each table has. -/
def statementCounts (c : Compilation) : List (String × Nat) :=
  c.tables.map fun t => (t.name, t.statements.length)

end Compilation

/-- Compiles a schema that passes the rules. -/
def compile (limits : Limits) (options : Options) (schema : Schema) :
    Except CompileError Compilation :=
  if schema.passes limits then .ok (.ofSchema options schema)
  else .error (.invalid (schema.violations limits))

end Schemata.Ddl
