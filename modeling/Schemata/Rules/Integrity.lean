import Schemata.Rules.Basic
import Schemata.Schema.Basic

/-! Foreign keys, indexes and relationships point at things that exist. -/

namespace Schemata

/-- The last table of a name. -/
def Schema.lastTable? (schema : Schema) (name : String) : Option Table :=
  schema.tables.reverse.find? (·.name == name)

def foreignKeyViolations (schema : Schema) (table : Table) (column : Column) (ref : Reference) :
    List Violation :=
  match schema.lastTable? ref.table with
  | none => [.missingTarget table.name column.name ref.table]
  | some target =>
    if (target.column? ref.column).isSome then []
    else [.missingTargetColumn table.name column.name ref.table ref.column]

def indexViolations (table : Table) (index : Index) : List Violation :=
  (if index.columns.isEmpty then [.emptyIndex table.name index.name] else [])
    ++ (index.columns.filter fun column => !table.columnNames.contains column).map
      (.missingIndexColumn table.name index.name)

def sideViolations (schema : Schema) (position : Nat) (side : Side) (tableName column : String) :
    List Violation :=
  match schema.lastTable? tableName with
  | none => [.relationshipTable position side tableName]
  | some table =>
    if (table.column? column).isSome then []
    else [.relationshipColumn position side tableName column]

def relationshipViolations (schema : Schema) (position : Nat) (r : Relationship) :
    List Violation :=
  sideViolations schema position .start r.fromTable r.fromColumn
    ++ sideViolations schema position .target r.toTable r.toColumn

def integrityViolations (schema : Schema) : List Violation :=
  (schema.tables.flatMap fun table =>
    (table.foreignKeys.flatMap fun (column, ref) =>
      foreignKeyViolations schema table column ref)
    ++ table.indexes.flatMap (indexViolations table))
  ++ schema.relationships.zipIdx.flatMap fun (r, position) =>
    relationshipViolations schema position r

end Schemata
