import Schemata.Rules.Basic
import Schemata.Schema.Basic

/-! Every table carries `id` as its primary key, `user_id`, `created_at` and `updated_at`. -/

namespace Schemata

/-- Reports a violation where something does not hold. -/
def violationUnless (holds : Bool) (violation : Violation) : List Violation :=
  if holds then [] else [violation]

/-- The violations of the first column of a name, none when there is no such column. -/
def ofFirstColumn (table : Table) (name : String) (check : Column → List Violation) :
    List Violation :=
  (table.column? name).elim [] check

def idViolations (table : Table) (column : Column) : List Violation :=
  violationUnless column.primaryKey (.idNotPrimary table.name)
    ++ violationUnless (column.type == .uuid) (.auditNotUuid table.name "id" column.type.sql)

def userIdViolations (table : Table) (column : Column) : List Violation :=
  violationUnless (!column.nullable) (.auditNullable table.name "user_id")
    ++ violationUnless (column.type == .uuid) (.auditNotUuid table.name "user_id" column.type.sql)

def timestampViolations (table : Table) (name : String) (column : Column) : List Violation :=
  violationUnless (!column.nullable) (.auditNullable table.name name)
    ++ violationUnless column.type.isTimestamp (.auditNotTimestamp table.name name column.type.sql)

def tableAuditViolations (table : Table) : List Violation :=
  (auditNames.filter fun name => (table.column? name).isNone).map (.missingAudit table.name)
    ++ ofFirstColumn table "id" (idViolations table)
    ++ ofFirstColumn table "user_id" (userIdViolations table)
    ++ ofFirstColumn table "created_at" (timestampViolations table "created_at")
    ++ ofFirstColumn table "updated_at" (timestampViolations table "updated_at")
    ++ table.columns.flatMap fun column =>
      violationUnless (!column.primaryKey || column.name == "id")
        (.strayPrimary table.name column.name)

def auditViolations (schema : Schema) : List Violation :=
  schema.tables.flatMap tableAuditViolations

end Schemata
