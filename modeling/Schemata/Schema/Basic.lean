import Schemata.Json.Plain

/-! Entity schemas: tables with typed columns, indexes and display hints, and the relationships
between tables. Counts and names are free here; the rules judge them. -/

namespace Schemata

/-- The types that a column may have. -/
inductive ColumnType where
  | uuid | text | varchar | integer | bigint | boolean | timestamp | timestamptz | date | numeric
  | jsonb | textArray | integerArray | uuidArray
  deriving DecidableEq, Repr

namespace ColumnType

def all : List ColumnType := [
  .uuid, .text, .varchar, .integer, .bigint, .boolean, .timestamp, .timestamptz, .date, .numeric,
  .jsonb, .textArray, .integerArray, .uuidArray]

def sql : ColumnType → String
  | uuid => "UUID"
  | text => "TEXT"
  | varchar => "VARCHAR"
  | integer => "INTEGER"
  | bigint => "BIGINT"
  | boolean => "BOOLEAN"
  | timestamp => "TIMESTAMP"
  | timestamptz => "TIMESTAMPTZ"
  | date => "DATE"
  | numeric => "NUMERIC"
  | jsonb => "JSONB"
  | textArray => "TEXT[]"
  | integerArray => "INTEGER[]"
  | uuidArray => "UUID[]"

def isNumeric : ColumnType → Bool
  | integer | bigint | numeric => true
  | _ => false

def isTemporal : ColumnType → Bool
  | timestamp | timestamptz | date => true
  | _ => false

/-- A point in time, with or without a zone. -/
def isTimestamp : ColumnType → Bool
  | timestamp | timestamptz => true
  | _ => false

end ColumnType

/-- What happens to a row when the row that it points at is deleted. -/
inductive DeleteAction where
  | cascade | restrict | setNull | noAction
  deriving DecidableEq, Repr

namespace DeleteAction

def all : List DeleteAction := [.cascade, .restrict, .setNull, .noAction]

def sql : DeleteAction → String
  | cascade => "CASCADE"
  | restrict => "RESTRICT"
  | setNull => "SET NULL"
  | noAction => "NO ACTION"

end DeleteAction

/-- How many rows of two tables belong together. -/
inductive Cardinality where
  | oneToOne | oneToMany | manyToOne | manyToMany
  deriving DecidableEq, Repr

namespace Cardinality

def all : List Cardinality := [.oneToOne, .oneToMany, .manyToOne, .manyToMany]

def word : Cardinality → String
  | oneToOne => "one-to-one"
  | oneToMany => "one-to-many"
  | manyToOne => "many-to-one"
  | manyToMany => "many-to-many"

end Cardinality

/-- The target of a foreign key. -/
structure Reference where
  table : String
  column : String
  onDelete : DeleteAction
  deriving DecidableEq, Repr

structure Column where
  name : String
  type : ColumnType
  nullable : Bool
  default? : Option String
  unique : Bool
  primaryKey : Bool
  reference? : Option Reference
  deriving DecidableEq, Repr

structure Index where
  name : String
  columns : List String
  unique : Bool
  deriving DecidableEq, Repr

/-- The names of the hints that have a meaning of their own. -/
def hintNames : List String := ["icon", "label", "description", "color", "columns"]

/-- Hints for showing a table. Hints of other names are carried along, and so are those of columns;
their values are plain, so that a payload can have them as they are. -/
structure Hints where
  icon? : Option String
  label? : Option String
  description? : Option String
  color? : Option String
  columns : List (String × Members)
  extras : Members
  extras_fresh : ∀ extra ∈ extras, extra.1 ∉ hintNames
  columns_plain : ∀ column ∈ columns, ∀ hint ∈ column.2, hint.2.isPlain = true
  extras_plain : ∀ extra ∈ extras, extra.2.isPlain = true
  deriving DecidableEq, Repr

/-- No hints at all. -/
def Hints.none : Hints where
  icon? := .none
  label? := .none
  description? := .none
  color? := .none
  columns := []
  extras := []
  extras_fresh := by simp
  columns_plain := by simp
  extras_plain := by simp

structure Table where
  name : String
  columns : List Column
  indexes : List Index
  hints : Hints
  deriving DecidableEq, Repr

structure Relationship where
  fromTable : String
  fromColumn : String
  toTable : String
  toColumn : String
  cardinality : Cardinality
  deriving DecidableEq, Repr

structure Schema where
  version : String
  tables : List Table
  relationships : List Relationship
  deriving DecidableEq, Repr

/-- The columns that every table carries. -/
def auditNames : List String := ["id", "user_id", "created_at", "updated_at"]

namespace Table

def columnNames (table : Table) : List String := table.columns.map (·.name)

/-- The first column of that name. -/
def column? (table : Table) (name : String) : Option Column :=
  table.columns.find? (·.name == name)

/-- The columns that point at another table, in column order, with what they point at. -/
def foreignKeys (table : Table) : List (Column × Reference) :=
  table.columns.filterMap fun column => column.reference?.map fun ref => (column, ref)

/-- The columns other than the audit columns. -/
def businessColumns (table : Table) : List Column :=
  table.columns.filter fun column => !auditNames.contains column.name

/-- The tables that the foreign keys point at, each once, in column order. -/
def references (table : Table) : List String :=
  (table.foreignKeys.map (·.2.table)).eraseDups

end Table

namespace Schema

def tableNames (schema : Schema) : List String := schema.tables.map (·.name)

/-- The first table of that name. -/
def table? (schema : Schema) (name : String) : Option Table :=
  schema.tables.find? (·.name == name)

end Schema

/-- The audit columns in their canonical form. -/
def auditColumns : List Column := [
  ⟨"id", .uuid, false, some "gen_random_uuid()", false, true, none⟩,
  ⟨"user_id", .uuid, false, none, false, false, none⟩,
  ⟨"created_at", .timestamptz, false, some "now()", false, false, none⟩,
  ⟨"updated_at", .timestamptz, false, some "now()", false, false, none⟩]

end Schemata
