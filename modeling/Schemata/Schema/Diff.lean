import Schemata.Schema.Basic

/-! Differences between two schemas. Tables and columns are matched by name; of several with one
name the last counts. -/

namespace Schemata

/-- How a table differs between two schemas. -/
structure TableChange where
  table : String
  added : List String
  removed : List String
  changed : List String
  deriving DecidableEq, Repr

structure SchemaDiff where
  added : List String
  removed : List String
  modified : List TableChange
  deriving DecidableEq, Repr

/-- The names of the first list that the second does not have. -/
def missingNames {α : Type} (present absent : Keyed α) : List String :=
  present.keys.filter fun name => (absent.lookup name).isNone

namespace TableChange

/-- The columns that were added, removed or given another definition. -/
def between (old new : Table) : TableChange :=
  let before := Keyed.latest Column.name old.columns
  let after := Keyed.latest Column.name new.columns
  { table := new.name
    added := missingNames after before
    removed := missingNames before after
    changed := (after.filter fun (name, column) =>
      match before.lookup name with
      | some earlier => earlier != column
      | none => false).map (·.1) }

def isEmpty (c : TableChange) : Bool :=
  c.added.isEmpty && c.removed.isEmpty && c.changed.isEmpty

def toJson (c : TableChange) : Json :=
  .obj [("table", .str c.table), ("added_columns", Json.ofStrings c.added),
    ("removed_columns", Json.ofStrings c.removed),
    ("changed_columns", Json.ofStrings c.changed)]

end TableChange

namespace SchemaDiff

def between (old new : Schema) : SchemaDiff :=
  let before := Keyed.latest Table.name old.tables
  let after := Keyed.latest Table.name new.tables
  { added := missingNames after before
    removed := missingNames before after
    modified := after.filterMap fun (name, table) =>
      (before.lookup name).bind fun earlier =>
        let change := TableChange.between earlier table
        if change.isEmpty then none else some change }

def isEmpty (d : SchemaDiff) : Bool := d.added.isEmpty && d.removed.isEmpty && d.modified.isEmpty

def members (d : SchemaDiff) : Members :=
  [("added", Json.ofStrings d.added), ("removed", Json.ofStrings d.removed),
    ("modified", .arr (d.modified.map TableChange.toJson))]

end SchemaDiff

end Schemata
