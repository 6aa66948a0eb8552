import Schemata.Graph.Chains
import Schemata.Graph.Cycles
import Schemata.Rules.Basic
import Schemata.Schema.Basic
import Schemata.Text.DecimalDigit

/-! Counts, the form of the version, and the depth of reference chains. -/

namespace Schemata

/-- The characters without one line feed at the end. -/
def withoutLineEnd (cs : List Char) : List Char :=
  if cs.getLast? = some '\n' then cs.dropLast else cs

/-- Digits, then a point and digits, twice; the digits of any script count, and a line feed may
follow. -/
def isVersionText (text : String) : Bool :=
  let digits? (cs : List Char) : Option (List Char) :=
    if (cs.takeWhile Text.isDecimalDigit).isEmpty then none
    else some (cs.dropWhile Text.isDecimalDigit)
  let afterPoint? : List Char → Option (List Char)
    | '.' :: rest => some rest
    | _ => none
  match (digits? text.toList >>= afterPoint?) >>= digits? >>= afterPoint? >>= digits? with
  | some rest => rest.isEmpty || rest == ['\n']
  | none => false

/-- Which tables of the schema each table points at. Of tables with one name the last one counts. -/
def Schema.referenceGraph (schema : Schema) : Graph :=
  .ofList (schema.tables.map fun table =>
    (table.name, table.references.filter schema.tableNames.contains))

def tableCountViolations (schema : Schema) (limits : Limits) : List Violation :=
  if schema.tables.isEmpty then [.noTables]
  else if limits.tables < schema.tables.length then
    [.tooManyTables limits.tables schema.tables.length]
  else []

def columnCountViolations (limits : Limits) (table : Table) : List Violation :=
  if table.columns.isEmpty then [.noColumns table.name]
  else if limits.columns < table.columns.length then
    [.tooManyColumns table.name limits.columns table.columns.length]
  else []

/-- Chains are measured only where there is no cycle. -/
def depthViolations (schema : Schema) (limits : Limits) : List Violation :=
  let g := schema.referenceGraph
  if g.cycles.isEmpty then
    g.chainLengths.filterMap fun (table, depth) =>
      if limits.depth < depth then some (.deepChain table depth limits.depth) else none
  else []

def structureViolations (schema : Schema) (limits : Limits) : List Violation :=
  (if isVersionText schema.version then [] else [.version schema.version])
    ++ tableCountViolations schema limits
    ++ schema.tables.flatMap (columnCountViolations limits)
    ++ depthViolations schema limits

/-- Every cycle of references is a violation, a table that points at itself included. -/
def cycleViolations (schema : Schema) : List Violation :=
  schema.referenceGraph.cycles.map .cycle

end Schemata
