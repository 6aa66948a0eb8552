import Schemata.Ddl.Compilation

/-! Single changes to tables that exist. -/

namespace Schemata.Ddl

/-- A column without a default can only be added where values may be missing. -/
def addColumn (table : String) (column : Column) : Except CompileError Statement :=
  if !column.nullable && !column.primaryKey && column.default?.isNone then
    .error (.requiredColumn table column.name)
  else .ok (.addColumn table (.ofColumn column))

def dropColumn (table column : String) : Statement := .dropColumn table column

def dropTable (table : String) : Statement := .dropTable table

end Schemata.Ddl
