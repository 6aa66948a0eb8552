import Schemata.Resource.Basic
import Schemata.Schema.Basic
import Schemata.Text.Blank
import Schemata.Text.LetterCase
import Schemata.Text.Search

/-! Resources out of tables. Hints choose labels and field types; a hint of the wrong kind counts as
missing. -/

namespace Schemata

/-- Words between underscores, each with a capital in front and a space between them. -/
def humanize (name : String) : String :=
  let capital : List Char → List Char
    | [] => []
    | c :: rest => Text.upperChar c ++ rest
  let words := (Text.pieces '_' name.toList).filter fun word => !word.isEmpty
  " ".intercalate (words.map fun word => .ofList (capital word))

/-- Adds an `s` unless there is one at the end. -/
def pluralize (name : String) : String :=
  if name.toList.getLast? = some 's' then name else name ++ "s"

/-- How a column is shown when no hint says so. -/
def ColumnType.fieldType : ColumnType → FieldType
  | .integer | .bigint => .number
  | .numeric => .currency
  | .boolean => .boolean
  | .date | .timestamp | .timestamptz => .date
  | .jsonb => .textarea
  | .text | .varchar | .uuid | .textArray | .integerArray | .uuidArray => .text

/-- The hint of a name, when it is a text. -/
def textHint? (hints : Members) (name : String) : Option String :=
  match hints.lookup name with
  | some (.str s) => some s
  | _ => none

/-- The hint of a name, when it is a truth value; otherwise it holds. -/
def flagHint (hints : Members) (name : String) : Bool :=
  match hints.lookup name with
  | some (.bool b) => b
  | _ => true

def Column.toField (column : Column) (hints : Members) : ResourceField where
  name := column.name
  type := ((textHint? hints "type").bind FieldType.ofWord?).getD column.type.fieldType
  required := !column.nullable
  displayName :=
    ((textHint? hints "label").filter fun label => Text.strip label != "").getD
      (humanize column.name)
  filterable := flagHint hints "filterable"
  sortable := flagHint hints "sortable"
  related? := column.reference?.map (·.table)

/-- The name of a foreign key without `_id` at its end. -/
def linkName (column : String) : String :=
  let cs := column.toList
  if "_id".toList.isSuffixOf cs then .ofList (cs.take (cs.length - 3)) else column

def ResourceLink.ofForeignKey (key : Column × Reference) : ResourceLink where
  name := linkName key.1.name
  kind := .belongsTo
  related := key.2.table
  foreignKey := key.1.name

/-- A hint that is given and not empty. -/
def filled? (hint? : Option String) : Option String := hint?.filter (· != "")

def Table.toResource (table : Table) : Resource :=
  let hints := table.hints
  let plural := pluralize table.name
  let singularLabel := (filled? hints.label?).getD (humanize table.name)
  let pluralLabel := singularLabel ++ "s"
  { name := table.name
    plural
    singularLabel
    pluralLabel
    icon := (filled? hints.icon?).getD "Database"
    description := (filled? hints.description?).getD ("Manage " ++ Text.lower pluralLabel)
    color := (filled? hints.color?).getD "blue"
    fields := table.columns.map fun column =>
      column.toField ((hints.columns.lookup column.name).getD [])
    links := table.foreignKeys.map ResourceLink.ofForeignKey
    route := "/" ++ plural }

def Schema.toResources (schema : Schema) : List Resource := schema.tables.map Table.toResource

end Schemata
