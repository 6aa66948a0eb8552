import Schemata.Schema.Basic
import Schemata.Sql.DefaultValue

/-! Statements that define data, as data. Each kind has one written form, in which every name and
every text is quoted. -/

namespace Schemata.Ddl

/-- How a column treats missing values. -/
inductive Presence where
  | primaryKey
  | required
  | optional
  deriving DecidableEq, Repr

/-- The definition of one column inside a statement. -/
structure ColumnClause where
  name : String
  type : ColumnType
  presence : Presence
  default? : Option Sql.DefaultValue
  unique : Bool
  deriving DecidableEq, Repr

/-- A statement that defines or removes something. -/
inductive Statement where
  | createFunction (name : String)
  | createTable (table : String) (columns : List ColumnClause)
  | dropConstraint (table constraint : String)
  | addForeignKey (table constraint column : String) (target : Reference)
  | createIndex (unique : Bool) (name table : String) (columns : List String)
  | enableRowSecurity (table : String)
  | dropPolicy (policy table : String)
  | createPolicy (policy table role principal : String)
  | dropTrigger (trigger table : String)
  | createTrigger (trigger table function : String)
  | addColumn (table : String) (column : ColumnClause)
  | dropColumn (table column : String)
  | dropTable (table : String)
  deriving DecidableEq, Repr

/-- A primary key is required and unique by itself. -/
def ColumnClause.ofColumn (c : Column) : ColumnClause where
  name := c.name
  type := c.type
  presence := if c.primaryKey then .primaryKey else if c.nullable then .optional else .required
  default? := c.default?.map Sql.DefaultValue.classify
  unique := c.unique && !c.primaryKey

def Presence.sql? : Presence → Option String
  | primaryKey => some "PRIMARY KEY"
  | required => some "NOT NULL"
  | optional => none

def ColumnClause.sql (c : ColumnClause) : String :=
  " ".intercalate <| [Sql.identifier c.name, c.type.sql]
    ++ c.presence.sql?.toList
    ++ (c.default?.map fun value => "DEFAULT " ++ value.sql).toList
    ++ (if c.unique then ["UNIQUE"] else [])

/-- Rows are visible to the principal that owns them. -/
def ownershipPredicate (principal : String) : String :=
  Sql.identifier "user_id" ++ " = " ++ principal

namespace Statement

/-- The lines of a statement. -/
def lines : Statement → List String
  | .createFunction name =>
    ["CREATE OR REPLACE FUNCTION " ++ Sql.identifier name ++ "()", "RETURNS TRIGGER AS $$",
      "BEGIN", "    NEW.updated_at = NOW();", "    RETURN NEW;", "END;", "$$ LANGUAGE plpgsql;"]
  | .createTable table columns =>
    ["CREATE TABLE IF NOT EXISTS " ++ Sql.identifier table ++ " (",
      ",\n".intercalate (columns.map fun c => "  " ++ c.sql), ");"]
  | .dropConstraint table constraint =>
    ["ALTER TABLE " ++ Sql.identifier table ++ " DROP CONSTRAINT IF EXISTS "
      ++ Sql.identifier constraint ++ ";"]
  | .addForeignKey table constraint column target =>
    ["ALTER TABLE " ++ Sql.identifier table ++ " ADD CONSTRAINT " ++ Sql.identifier constraint
      ++ " FOREIGN KEY (" ++ Sql.identifier column ++ ") REFERENCES "
      ++ Sql.identifier target.table ++ " (" ++ Sql.identifier target.column ++ ") ON DELETE "
      ++ target.onDelete.sql ++ ";"]
  | .createIndex unique name table columns =>
    ["CREATE " ++ (if unique then "UNIQUE " else "") ++ "INDEX IF NOT EXISTS "
      ++ Sql.identifier name ++ " ON " ++ Sql.identifier table ++ " ("
      ++ ", ".intercalate (columns.map Sql.identifier) ++ ");"]
  | .enableRowSecurity table =>
    ["ALTER TABLE " ++ Sql.identifier table ++ " ENABLE ROW LEVEL SECURITY;"]
  | .dropPolicy policy table =>
    ["DROP POLICY IF EXISTS " ++ Sql.identifier policy ++ " ON " ++ Sql.identifier table ++ ";"]
  | .createPolicy policy table role principal =>
    ["CREATE POLICY " ++ Sql.identifier policy ++ " ON " ++ Sql.identifier table, "  FOR ALL",
      "  TO " ++ role, "  USING (" ++ ownershipPredicate principal ++ ")",
      "  WITH CHECK (" ++ ownershipPredicate principal ++ ");"]
  | .dropTrigger trigger table =>
    ["DROP TRIGGER IF EXISTS " ++ Sql.identifier trigger ++ " ON " ++ Sql.identifier table ++ ";"]
  | .createTrigger trigger table function =>
    ["CREATE TRIGGER " ++ Sql.identifier trigger,
      "    BEFORE UPDATE ON " ++ Sql.identifier table, "    FOR EACH ROW",
      "    EXECUTE FUNCTION " ++ Sql.identifier function ++ "();"]
  | .addColumn table column =>
    ["ALTER TABLE " ++ Sql.identifier table ++ " ADD COLUMN IF NOT EXISTS " ++ column.sql ++ ";"]
  | .dropColumn table column =>
    ["ALTER TABLE " ++ Sql.identifier table ++ " DROP COLUMN IF EXISTS " ++ Sql.identifier column
      ++ ";"]
  | .dropTable table => ["DROP TABLE IF EXISTS " ++ Sql.identifier table ++ " CASCADE;"]

/-- The written form of a statement. -/
def sql (s : Statement) : String := "\n".intercalate s.lines

end Statement

end Schemata.Ddl
