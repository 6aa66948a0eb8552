import Schemata.Ddl.Statement
import Schemata.Settings.Basic
import Schemata.Sql.Naming

/-! The statements of one table, in five groups that run one after the other. -/

namespace Schemata.Ddl

/-- Names that a deployment chooses for its row security and its triggers. -/
structure Options where
  principal : String
  role : String
  updatedAtFunction : String
  deriving DecidableEq, Repr

def Options.ofSettings (s : Settings) : Options :=
  ⟨s.principalExpression, s.policyRole, s.updatedAtFunction⟩

def Options.standard : Options := .ofSettings .standard

/-- The columns that every table has an index on. -/
def indexedColumns : List String := ["user_id", "created_at"]

/-- One table's statements. -/
structure TableDdl where
  name : String
  createTable : Statement
  foreignKeys : List Statement
  indexes : List Statement
  rowSecurity : List Statement
  triggers : List Statement
  references : List String
  deriving DecidableEq, Repr

/-- All statements of a table, group after group. -/
def TableDdl.statements (t : TableDdl) : List Statement :=
  t.createTable :: t.foreignKeys ++ t.indexes ++ t.rowSecurity ++ t.triggers

def createTableStatement (table : Table) : Statement :=
  .createTable table.name (table.columns.map ColumnClause.ofColumn)

/-- The name of the constraint behind a foreign key. -/
def constraintName (table column : String) : String := Sql.derivedName ["fk", table, column]

/-- Foreign keys stand outside the definition of the table, so tables can point at later ones. Each
constraint is dropped before it is added. -/
def foreignKeyStatements (table : Table) : List Statement :=
  table.foreignKeys.flatMap fun (column, ref) =>
    let constraint := constraintName table.name column.name
    [.dropConstraint table.name constraint,
      .addForeignKey table.name constraint column.name ref]

/-- The name of the index that every table has on a column. -/
def usualIndexName (table column : String) : String := Sql.derivedName ["idx", table, column]

/-- The declared indexes, then the usual ones whose names are not taken by a declared one. -/
def indexStatements (table : Table) : List Statement :=
  let declared := table.indexes.map (·.name)
  table.indexes.map (fun index => .createIndex index.unique index.name table.name index.columns)
    ++ indexedColumns.filterMap fun column =>
      let name := usualIndexName table.name column
      if declared.contains name then none else some (.createIndex false name table.name [column])

def rowSecurityStatements (options : Options) (table : String) : List Statement :=
  let policy := Sql.derivedName [table, "user_isolation"]
  [.enableRowSecurity table, .dropPolicy policy table,
    .createPolicy policy table options.role options.principal]

def triggerStatements (options : Options) (table : String) : List Statement :=
  let trigger := Sql.derivedName [table, "updated_at"]
  [.dropTrigger trigger table, .createTrigger trigger table options.updatedAtFunction]

def TableDdl.ofTable (options : Options) (table : Table) : TableDdl where
  name := table.name
  createTable := createTableStatement table
  foreignKeys := foreignKeyStatements table
  indexes := indexStatements table
  rowSecurity := rowSecurityStatements options table.name
  triggers := triggerStatements options table.name
  references := table.references

end Schemata.Ddl
