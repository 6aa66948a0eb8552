import Schemata.Json.Display
import Schemata.Json.Equality

/-! Changes to a schema as a collaborator describes them. Names inside a change may be any data
value; a name that is no text simply matches nothing that is text. -/

namespace Schemata

/-- One change. -/
inductive Change where
  | addTable (table : Members)
  | modifyTable (table : Json) (changes : Members)
  | deleteTable (table : Json)
  | addColumn (table : Json) (column : Members)
  | modifyColumn (table column : Json) (changes : Members)
  | deleteColumn (table column : Json)
  | addRelationship (relationship : Members)
  | deleteRelationship (fromTable fromColumn : Json)
  | modifyHints (table : Json) (changes : Members)
  deriving DecidableEq

/-- How a part of a schema in its exchanged form can be of the wrong kind for a change. -/
inductive Clash where
  | noRows (kind : String)
  | noMembers (kind : String)
  | noMerge (kind : String)
  | noName (kind : String)
  | noAppend (kind : String)
  | absent (key : String)
  deriving DecidableEq, Repr

def Clash.message : Clash → String
  | noRows kind => s!"'{kind}' object is not iterable"
  | noMembers kind => s!"'{kind}' object has no attribute 'get'"
  | noMerge kind => s!"'{kind}' object is not a mapping"
  | noName kind => s!"unhashable type: '{kind}'"
  | noAppend kind => s!"'{kind}' object has no attribute 'append'"
  | absent key => s!"'{key}'"

/-- Why a change cannot be read or applied. -/
inductive ChangeError where
  | notObject (kind : String)
  | missingKey (type target : Json) (key : String)
  | changesNotObject (type target : Json)
  | columnsNotObjects (type : Json)
  | unsupported (type target : Json)
  | noTable (table : Json)
  | noColumn (table column : Json)
  | noRelationship (fromTable fromColumn : Json)
  | inapplicable (change : String) (clash : Clash)
  deriving DecidableEq

def ChangeError.message : ChangeError → String
  | notObject kind => s!"Change must be an object, got {kind}"
  | missingKey type target key => s!"Change {type.spoken}/{target.spoken} is missing '{key}'"
  | changesNotObject type target =>
    s!"Change {type.spoken}/{target.spoken} needs an object in 'changes'"
  | columnsNotObjects type =>
    s!"Change {type.spoken}/table needs a list of column objects in 'changes.columns'"
  | unsupported type target => s!"Unsupported change: type={type.shown} target={target.shown}"
  | noTable table => s!"Table '{table.spoken}' does not exist"
  | noColumn table column => s!"Column '{table.spoken}.{column.spoken}' does not exist"
  | noRelationship fromTable fromColumn =>
    s!"Relationship from '{fromTable.spoken}.{fromColumn.spoken}' does not exist"
  | inapplicable change clash => s!"{change} could not be applied to the schema: {clash.message}"

namespace Change

def word : Change → String
  | addTable .. => "AddTable"
  | modifyTable .. => "ModifyTable"
  | deleteTable .. => "DeleteTable"
  | addColumn .. => "AddColumn"
  | modifyColumn .. => "ModifyColumn"
  | deleteColumn .. => "DeleteColumn"
  | addRelationship .. => "AddRelationship"
  | deleteRelationship .. => "DeleteRelationship"
  | modifyHints .. => "ModifyUIHints"

/-- The value of a key that has to be there and not be empty. -/
def requireKey (delta : Members) (key : String) : Except ChangeError Json :=
  let delta' : Json := .obj delta
  match delta'.member key with
  | .null | .str "" => .error (.missingKey (delta'.member "type") (delta'.member "target") key)
  | value => .ok value

/-- The members under `changes`; anything empty counts as no members. -/
def changesOf (delta : Members) : Except ChangeError Members :=
  let delta' : Json := .obj delta
  match delta'.member "changes" with
  | .obj changes => .ok changes
  | value =>
    if value.isVoid then .ok []
    else .error (.changesNotObject (delta'.member "type") (delta'.member "target"))

def isObject : Json → Bool
  | .obj _ => true
  | _ => false

/-- Changes to a table, whose columns, when they are given, are a list of objects. -/
def tableChangesOf (delta : Members) : Except ChangeError Members := do
  let changes ← changesOf delta
  match changes.lookup "columns" with
  | none => return changes
  | some (.arr columns) =>
    if columns.all isObject then return changes
    else throw (.columnsNotObjects ((Json.obj delta).member "type"))
  | some _ => throw (.columnsNotObjects ((Json.obj delta).member "type"))

/-- Reads one change. -/
def parse : Json → Except ChangeError Change
  | .obj delta => do
    let type := (Json.obj delta).member "type"
    let target := (Json.obj delta).member "target"
    match type, target with
    | .str "add", .str "table" => return .addTable (← tableChangesOf delta)
    | .str "modify", .str "table" =>
      return .modifyTable (← requireKey delta "tableName") (← tableChangesOf delta)
    | .str "delete", .str "table" => return .deleteTable (← requireKey delta "tableName")
    | .str "add", .str "column" =>
      return .addColumn (← requireKey delta "tableName") (← changesOf delta)
    | .str "modify", .str "column" =>
      return .modifyColumn (← requireKey delta "tableName") (← requireKey delta "columnName")
        (← changesOf delta)
    | .str "delete", .str "column" =>
      return .deleteColumn (← requireKey delta "tableName") (← requireKey delta "columnName")
    | .str "add", .str "relationship" => return .addRelationship (← changesOf delta)
    | .str "delete", .str "relationship" =>
      let relationship ← changesOf delta
      return .deleteRelationship (← requireKey relationship "from_table")
        (← requireKey relationship "from_column")
    | .str "add", .str "ui_hints" | .str "modify", .str "ui_hints" =>
      return .modifyHints (← requireKey delta "tableName") (← changesOf delta)
    | _, _ => throw (.unsupported type target)
  | value => .error (.notObject value.kindName)

/-- Reads a list of changes; the first one that cannot be read decides. -/
def parseAll (deltas : List Json) : Except ChangeError (List Change) := deltas.mapM parse

def toJson (change : Change) : Json :=
  let fields : Members := match change with
    | addTable table => [("table", .obj table)]
    | modifyTable table changes | modifyHints table changes =>
      [("table_name", table), ("changes", .obj changes)]
    | deleteTable table => [("table_name", table)]
    | addColumn table column => [("table_name", table), ("column", .obj column)]
    | modifyColumn table column changes =>
      [("table_name", table), ("column_name", column), ("changes", .obj changes)]
    | deleteColumn table column => [("table_name", table), ("column_name", column)]
    | addRelationship relationship => [("relationship", .obj relationship)]
    | deleteRelationship fromTable fromColumn =>
      [("from_table", fromTable), ("from_column", fromColumn)]
  .obj (("kind", .str change.word) :: fields)

end Change

end Schemata
