import Schemata.Rules.Basic
import Schemata.Schema.Basic
import Schemata.Sql.DefaultValue

/-! The default of a column suits the type of the column. -/

namespace Schemata

/-- Longer text defaults are refused. -/
def maxDefaultLength : Nat := 255

/-- What is wrong with an expression as the default of a column. -/
def expressionProblem? (column : Column) : Sql.DefaultExpression → Option DefaultProblem
  | .null => if column.nullable then none else some .nullOnRequired
  | .generatedUuid => if column.type = .uuid then none else some .uuidOnly
  | e => if column.type.isTemporal then none else some (.temporalOnly e.sql)

/-- What is wrong with a default, by its kind and the type of the column. -/
def defaultProblem? (column : Column) (raw : String) : Option DefaultProblem :=
  match Sql.DefaultValue.classify raw with
  | .expression e => expressionProblem? column e
  | .boolean _ =>
    if column.type = .boolean then none
    else if column.type.isNumeric then some (.notNumeric column.type.sql)
    else some (.booleanOn column.type.sql)
  | .number _ => if column.type = .boolean then some .notBoolean else none
  | .string text =>
    if column.type = .boolean then some .notBoolean
    else if column.type.isNumeric then some (.notNumeric column.type.sql)
    else if maxDefaultLength < text.length then some (.tooLong maxDefaultLength)
    else none

def defaultViolations (schema : Schema) : List Violation :=
  schema.tables.flatMap fun table => table.columns.filterMap fun column =>
    (column.default?.bind (defaultProblem? column)).map
      (.unsuitableDefault table.name column.name)

end Schemata
