import Schemata.Rules.Structure
import Schemata.Text.LetterCase

/-! Names: their length, their form, their uniqueness, and the words that no name may be. -/

namespace Schemata

/-- A small letter, then small letters, digits and underscores; a line feed may follow. -/
def isSnakeCase (name : String) : Bool :=
  let isSmall (c : Char) : Bool := 'a' ≤ c && c ≤ 'z'
  match withoutLineEnd name.toList with
  | [] => false
  | first :: rest =>
    isSmall first && rest.all fun c => isSmall c || Text.isAsciiDigit c || c == '_'

/-- The words that the database keeps for itself. -/
def reservedWords : List String := [
  "all", "alter", "analyse", "analyze", "and", "any", "array", "as", "asc", "both", "case", "cast",
  "check", "collate", "column", "constraint", "create", "cross", "current_date", "current_time",
  "current_timestamp", "current_user", "default", "delete", "desc", "distinct", "do", "drop",
  "else", "end", "except", "false", "fetch", "for", "foreign", "from", "grant", "group", "having",
  "in", "index", "insert", "intersect", "into", "is", "join", "leading", "limit", "not", "null",
  "offset", "on", "only", "or", "order", "primary", "references", "replace", "returning",
  "select", "session_user", "some", "table", "then", "to", "trailing", "true", "truncate", "union",
  "unique", "update", "user", "using", "when", "where", "window", "with"]

def isReserved (name : String) : Bool := reservedWords.contains (Text.lower name)

/-- A name that is too long is not looked at further. -/
def nameViolations (limits : Limits) (subject : Subject) : List Violation :=
  if limits.nameLength < subject.name.length then [.longName subject limits.nameLength]
  else if isSnakeCase subject.name then []
  else [.malformedName subject]

/-- The violations of names in a row, given the names before them. -/
def nameListViolations (limits : Limits) (subject : String → Subject) :
    List String → List String → List Violation
  | _, [] => []
  | seen, name :: rest =>
    nameViolations limits (subject name)
      ++ (if seen.contains name then [.repeatedName (subject name)] else [])
      ++ nameListViolations limits subject (name :: seen) rest

/-- Table by table: its name, the names of its columns, the names of its indexes. Index names are
compared over all tables. -/
def namingFrom (limits : Limits) : List String → List String → List Table → List Violation
  | _, _, [] => []
  | seenTables, seenIndexes, table :: rest =>
    let indexNames := table.indexes.map (·.name)
    nameViolations limits (.table table.name)
      ++ (if seenTables.contains table.name then [.repeatedName (.table table.name)] else [])
      ++ nameListViolations limits (.column table.name) [] table.columnNames
      ++ nameListViolations limits (.index table.name) seenIndexes indexNames
      ++ namingFrom limits (table.name :: seenTables) (indexNames.reverse ++ seenIndexes) rest

def namingViolations (schema : Schema) (limits : Limits) : List Violation :=
  namingFrom limits [] [] schema.tables

def reservedNameViolations (schema : Schema) : List Violation :=
  schema.tables.flatMap fun table =>
    (.table table.name :: table.columnNames.map (Subject.column table.name)).filterMap
      fun subject => if isReserved subject.name then some (.reservedName subject) else none

end Schemata
