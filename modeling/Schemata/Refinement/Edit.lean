import Schemata.Refinement.Change
import Schemata.Schema.Decode
import Schemata.Schema.Payload

/-! Applying changes to a schema in its exchanged form. The form may be anything here; where a
change reaches into something of the wrong kind, it cannot be applied. -/

namespace Schemata

namespace Edit

/-- Why a single step cannot be done: a target is missing, or a part has the wrong kind. -/
inductive Obstacle where
  | missing (error : ChangeError)
  | clash (clash : Clash)
  deriving DecidableEq

/-- Whether a value is an object, whatever its members are called. -/
def isObject (value : Json) : Bool := value.members?.isSome

/-- The value that an object has under a key. -/
def lookup? (value : Json) (key : String) : Option Json := value.members?.bind (·.lookup key)

/-- Puts a value under a text among entries with names of any kind. -/
def putEntry (entries : List (Json × Json)) (key : String) (value : Json) : List (Json × Json) :=
  match entries with
  | [] => [(.str key, value)]
  | (name, old) :: rest =>
    if name = .str key then (name, value) :: rest else (name, old) :: putEntry rest key value

/-- An object with a value put under a key; what is no object stays as it is. -/
def put (object : Json) (key : String) (value : Json) : Json :=
  match object with
  | .obj members => .obj (Keyed.put members key value)
  | .mixed entries => .mixed (putEntry entries key value)
  | other => other

/-- An object with all members of the changes put, from left to right. -/
def merge (object : Json) (changes : Members) : Json :=
  changes.foldl (fun object change => put object change.1 change.2) object

/-- The rows to go through. Something empty has no rows; members of an object and characters of a
text are no rows that could be looked into. -/
def rows : Json → Except Obstacle (List Json)
  | .arr items => .ok items
  | .obj [] => .ok []
  | .obj (_ :: _) => .error (.clash (.noMembers (Json.str "").kindName))
  | .str s => if s = "" then .ok [] else .error (.clash (.noMembers (Json.str s).kindName))
  | value => .error (.clash (.noRows value.kindName))

/-- Finds the first row whose `name` is the given value, with its place. The rows up to it have to
be objects. -/
def findNamed (name : Json) : Nat → List Json → Except Obstacle (Option (Nat × Json))
  | _, [] => .ok none
  | place, row :: rest =>
    if !isObject row then .error (.clash (.noMembers row.kindName))
    else if (row.member "name").same name then .ok (some (place, row))
    else findNamed name (place + 1) rest

/-- Keeps the rows that a test accepts; all of them have to be objects. -/
def keepRows (test : Json → Bool) : List Json → Except Obstacle (List Json)
  | [] => .ok []
  | row :: rest =>
    if !isObject row then .error (.clash (.noMembers row.kindName))
    else do
      let kept ← keepRows test rest
      return if test row then row :: kept else kept

/-- The table of a name, with its place. -/
def findTable (payload : Members) (name : Json) : Except Obstacle (Nat × Json) := do
  match payload.lookup "tables" with
  | none => throw (.clash (.absent "tables"))
  | some tables =>
    match ← findNamed name 0 (← rows tables) with
    | some found => return found
    | none => throw (.missing (.noTable name))

/-- Puts a table back in its place. -/
def putTable (payload : Members) (place : Nat) (table : Json) : Members :=
  match payload.lookup "tables" with
  | some (.arr tables) => payload.put "tables" (.arr (tables.set place table))
  | _ => payload

/-- Changes the table of a name. -/
def onTable (payload : Members) (name : Json) (edit : Json → Except Obstacle Json) :
    Except Obstacle Members := do
  let (place, table) ← findTable payload name
  return putTable payload place (← edit table)

/-- A list with an item added at its end; a list that is not there is empty. -/
def append (list? : Option Json) (item : Json) : Except Obstacle Json :=
  match list? with
  | none => .ok (.arr [item])
  | some (.arr items) => .ok (.arr (items ++ [item]))
  | some value => .error (.clash (.noAppend value.kindName))

/-- The columns of a table, and the one of a name with its place. -/
def findColumn (table name : Json) : Except Obstacle (List Json × Nat × Json) := do
  match lookup? table "columns" with
  | none => throw (.clash (.absent "columns"))
  | some columns =>
    let items ← rows columns
    match ← findNamed name 0 items with
    | some (place, column) => return (items, place, column)
    | none => throw (.missing (.noColumn (table.member "name") name))

/-- Arrays and objects are no names of columns. -/
def isPlain : Json → Bool
  | .arr _ | .obj _ | .mixed _ => false
  | _ => true

/-- The audit columns that are not among the given columns, in canonical form. -/
def missingAudit (names : List String) (columns : List Json) : List Json :=
  (auditColumns.filter fun audit => names.contains audit.name
    && !columns.any fun column => (column.member "name").same (.str audit.name)).map
      (Column.toJson .omitted)

/-- A table with its audit columns: the identifying ones in front, the times at the end. -/
def completeTable (table : Members) : Except Obstacle Members := do
  let columns ← rows ((table.lookup "columns").getD (.arr []))
  match columns.find? fun column => !isPlain (column.member "name") with
  | some column => throw (.clash (.noName (column.member "name").kindName))
  | none =>
    let front := missingAudit ["id", "user_id"] columns
    let back := missingAudit ["created_at", "updated_at"] columns
    return table.put "columns" (.arr (front ++ columns ++ back))

/-- The hints of a table with some of them replaced. -/
def mergeHints (table : Json) (changes : Members) : Except Obstacle Json :=
  match lookup? table "ui_hints" with
  | none => .ok (put table "ui_hints" (merge (.obj []) changes))
  | some hints =>
    if isObject hints then .ok (put table "ui_hints" (merge hints changes))
    else .error (.clash (.noMerge hints.kindName))

/-- Relationships, missing ones being none. -/
def relationshipRows (payload : Members) : Except Obstacle (List Json) :=
  match payload.lookup "relationships" with
  | none => .ok []
  | some value => rows value

/-- Deletes the tables of a name and the relationships with an end in them. -/
def deleteTable (payload : Members) (name : Json) : Except Obstacle Members := do
  let _ ← findTable payload name
  let tables ← keepRows (fun table => !(table.member "name").same name)
    (← rows ((Json.obj payload).member "tables"))
  let touches (r : Json) : Bool :=
    (r.member "from_table").same name || (r.member "to_table").same name
  let kept ← keepRows (fun r => !touches r) (← relationshipRows payload)
  return (payload.put "tables" (.arr tables)).put "relationships" (.arr kept)

/-- Deletes the relationships that start at a column; there has to be one. -/
def deleteRelationship (payload : Members) (fromTable fromColumn : Json) :
    Except Obstacle Members := do
  let before ← relationshipRows payload
  let startsHere (r : Json) : Bool :=
    (r.member "from_table").same fromTable && (r.member "from_column").same fromColumn
  let after ← keepRows (fun r => !startsHere r) before
  if after.length = before.length then
    throw (.missing (.noRelationship fromTable fromColumn))
  return payload.put "relationships" (.arr after)

/-- Changes a column of a table, or takes it out, given all columns, its place and the column
itself. -/
def onColumn (table name : Json) (edit : List Json → Nat → Json → List Json) :
    Except Obstacle Json := do
  let (items, place, column) ← findColumn table name
  return put table "columns" (.arr (edit items place column))

/-- One change. -/
def step (payload : Members) : Change → Except Obstacle Members
  | .addTable table => do
    return payload.put "tables" (← append (payload.lookup "tables") (.obj (← completeTable table)))
  | .modifyTable name changes => onTable payload name fun table => .ok (merge table changes)
  | .deleteTable name => deleteTable payload name
  | .addColumn name column => onTable payload name fun table => do
    return put table "columns" (← append (lookup? table "columns") (.obj column))
  | .modifyColumn name columnName changes => onTable payload name fun table =>
    onColumn table columnName fun items place column => items.set place (merge column changes)
  | .deleteColumn name columnName => onTable payload name fun table =>
    onColumn table columnName fun items place _ => items.eraseIdx place
  | .addRelationship relationship => do
    return payload.put "relationships" (← append (payload.lookup "relationships")
      (.obj relationship))
  | .deleteRelationship fromTable fromColumn => deleteRelationship payload fromTable fromColumn
  | .modifyHints name changes => onTable payload name fun table => mergeHints table changes

/-- A member that is not there becomes an empty list. -/
def withList (payload : Members) (key : String) : Members :=
  if (payload.lookup key).isSome then payload else payload ++ [(key, .arr [])]

end Edit

namespace Change

/-- One change, its obstacle put into words. -/
def apply (payload : Members) (change : Change) : Except ChangeError Members :=
  match Edit.step payload change with
  | .ok result => .ok result
  | .error (.missing error) => .error error
  | .error (.clash clash) => .error (.inapplicable change.word clash)

/-- All changes in order; the first one that fails decides. -/
def applyAll (payload : Members) (changes : List Change) : Except ChangeError Members :=
  changes.foldlM apply (Edit.withList (Edit.withList payload "tables") "relationships")

end Change

/-- Why a schema with changes applied is no schema. -/
inductive RevisionError where
  | tooDeep
  | change (error : ChangeError)
  | shape (errors : List ShapeError)
  deriving DecidableEq

/-- A schema with changes applied. The changes work on its exchanged form, so it has to have one. -/
def Schema.revise (schema : Schema) (changes : List Change) : Except RevisionError Schema :=
  if !schema.isWritable then .error .tooDeep
  else match Change.applyAll (schema.members .omitted) changes with
  | .error e => .error (.change e)
  | .ok payload => match Schema.ofMembers payload with
    | .valid schema => .ok schema
    | .invalid errors => .error (.shape errors)

end Schemata
