import Schemata.Json.Height
import Schemata.Schema.Basic

/-! Schemas as data values. A payload leaves out members without a value; a full record writes them
as `null`. Values inside hints are plain and stay as they are in both. -/

namespace Schemata

/-- What becomes of a member without a value. -/
inductive Vacant where
  | omitted
  | null
  deriving DecidableEq, Repr

/-- A member that may have no value. -/
def Vacant.member {α : Type} (vacant : Vacant) (name : String) (write : α → Json) :
    Option α → Members
  | some a => [(name, write a)]
  | none => match vacant with
    | .omitted => []
    | .null => [(name, .null)]

def Reference.toJson (r : Reference) : Json :=
  .obj [("table", .str r.table), ("column", .str r.column), ("onDelete", .str r.onDelete.sql)]

def Column.toJson (vacant : Vacant) (c : Column) : Json :=
  .obj ([("name", .str c.name), ("type", .str c.type.sql), ("nullable", .bool c.nullable)]
    ++ vacant.member "default" .str c.default?
    ++ [("unique", .bool c.unique), ("primaryKey", .bool c.primaryKey)]
    ++ vacant.member "references" Reference.toJson c.reference?)

def Index.toJson (i : Index) : Json :=
  .obj [("name", .str i.name), ("columns", Json.ofStrings i.columns), ("unique", .bool i.unique)]

/-- The hints of other names; a payload leaves out those that are `null`. -/
def Vacant.extras (vacant : Vacant) (extras : Members) : Members :=
  match vacant with
  | .omitted => extras.filter fun extra => !extra.2.isNull
  | .null => extras

def Hints.toJson (vacant : Vacant) (h : Hints) : Json :=
  .obj (vacant.member "icon" .str h.icon? ++ vacant.member "label" .str h.label?
    ++ vacant.member "description" .str h.description? ++ vacant.member "color" .str h.color?
    ++ [("columns", .obj (h.columns.map fun (name, hints) => (name, .obj hints)))]
    ++ vacant.extras h.extras)

def Table.toJson (vacant : Vacant) (t : Table) : Json :=
  .obj [("name", .str t.name), ("columns", .arr (t.columns.map (Column.toJson vacant))),
    ("indexes", .arr (t.indexes.map Index.toJson)), ("ui_hints", t.hints.toJson vacant)]

def Relationship.toJson (r : Relationship) : Json :=
  .obj [("from_table", .str r.fromTable), ("from_column", .str r.fromColumn),
    ("to_table", .str r.toTable), ("to_column", .str r.toColumn),
    ("type", .str r.cardinality.word)]

def Schema.members (vacant : Vacant) (s : Schema) : Members :=
  [("version", .str s.version), ("tables", .arr (s.tables.map (Table.toJson vacant))),
    ("relationships", .arr (s.relationships.map Relationship.toJson))]

def Schema.toJson (vacant : Vacant) (s : Schema) : Json := .obj (s.members vacant)

/-- A schema as it is exchanged and stored. -/
def Schema.payload (s : Schema) : Json := s.toJson .omitted

/-- Whether the values inside hints can be written out. -/
def Hints.isWritable (h : Hints) : Bool :=
  h.columns.all (fun (_, hints) => hints.all fun hint => hint.2.isWritable)
    && h.extras.all fun extra => extra.2.isWritable

def Table.isWritable (t : Table) : Bool := t.hints.isWritable

def Schema.isWritable (s : Schema) : Bool := s.tables.all Table.isWritable

/-- A schema as it is exchanged, unless some hint is nested too deep to be written out. -/
def Schema.payload? (s : Schema) : Option Json := if s.isWritable then some s.payload else none

/-- Hints as they read back from a payload: the hints of other names that are `null` are gone. -/
def Hints.settled (h : Hints) : Hints :=
  { h with
    extras := h.extras.filter fun extra => !extra.2.isNull
    extras_fresh := fun extra kept => h.extras_fresh extra (List.mem_filter.mp kept).1
    extras_plain := fun extra kept => h.extras_plain extra (List.mem_filter.mp kept).1 }

def Table.settled (t : Table) : Table := { t with hints := t.hints.settled }

/-- A schema as it reads back from its payload. -/
def Schema.settled (s : Schema) : Schema := { s with tables := s.tables.map Table.settled }

end Schemata
