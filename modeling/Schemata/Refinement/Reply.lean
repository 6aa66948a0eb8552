import Schemata.Json.Display
import Schemata.Json.Height
import Schemata.Shape.Decode

/-! Replies of the collaborator. Changes and a whole new schema stay raw here; other parts judge
them. -/

namespace Schemata

/-- What the collaborator took the user to ask for. -/
inductive Intent where
  | addTable | modifyTable | deleteTable | addColumn | modifyColumn | deleteColumn
  | addRelationship | modifyUi | addFeature | fixError | clarify | other
  deriving DecidableEq, Repr

namespace Intent

def all : List Intent := [
  .addTable, .modifyTable, .deleteTable, .addColumn, .modifyColumn, .deleteColumn,
  .addRelationship, .modifyUi, .addFeature, .fixError, .clarify, .other]

def word : Intent → String
  | addTable => "ADD_TABLE"
  | modifyTable => "MODIFY_TABLE"
  | deleteTable => "DELETE_TABLE"
  | addColumn => "ADD_COLUMN"
  | modifyColumn => "MODIFY_COLUMN"
  | deleteColumn => "DELETE_COLUMN"
  | addRelationship => "ADD_RELATIONSHIP"
  | modifyUi => "MODIFY_UI"
  | addFeature => "ADD_FEATURE"
  | fixError => "FIX_ERROR"
  | clarify => "CLARIFY"
  | other => "OTHER"

end Intent

structure Reply where
  intent : Intent
  reasoning : String
  changes : List Members
  schema? : Option Members
  message : String
  deriving DecidableEq

namespace Reply

def ofMembers (m : Members) : Checked Reply :=
  Reply.mk <$> Decode.optional m ["intent"] .other (Decode.choice Intent.all Intent.word)
    <*> Decode.optional m ["reasoning"] "" Decode.string
    <*> Decode.optional m ["changes"] [] (Decode.list Decode.object)
    <*> Decode.optional m ["updated_schema", "updatedSchema"] none
      (Decode.nullable Decode.object)
    <*> Decode.optional m ["response_message", "message"] "" Decode.string

def decode : Json → Checked Reply := Decode.record "RefinementResponse" ofMembers

def toJson (r : Reply) : Json :=
  .obj [("intent", .str r.intent.word), ("reasoning", .str r.reasoning),
    ("changes", .arr (r.changes.map .obj)), ("updated_schema", Json.ofOption .obj r.schema?),
    ("response_message", .str r.message)]

/-- Whether the values inside a reply can be written out. -/
def isWritable (r : Reply) : Bool :=
  (r.changes ++ r.schema?.toList).all fun members => members.all fun member => member.2.isWritable

end Reply

/-- Why something is no reply. -/
inductive ReplyError where
  | notObject (kind : String)
  | misshapen (errors : List ShapeError)
  deriving DecidableEq, Repr

/-- The way to a fault, its steps joined by points. -/
def dottedPlace (place : List Step) : String :=
  ".".intercalate (place.map fun
    | .key name => name
    | .index n => toString n)

def ReplyError.message : ReplyError → String
  | notObject kind => s!"Collaborator returned {kind}, expected an object"
  | misshapen errors =>
    "Collaborator response could not be parsed ("
      ++ ", ".intercalate (errors.map fun e => dottedPlace e.place) ++ ")"

/-- Reads what the collaborator gave back. -/
def Reply.parse : Json → Except ReplyError Reply
  | .obj members => match Reply.ofMembers members with
    | .valid reply => .ok reply
    | .invalid errors => .error (.misshapen errors)
  | value => .error (.notObject value.kindName)

end Schemata
