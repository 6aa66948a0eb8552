import Schemata.Json.Equality
import Schemata.Yaml.Scalar
import Schemata.Yaml.Token

/-! The nodes of a document, each with the value that it stands for. Nodes are made from the inside
out, so a node that is referred to several times is still made only once. Faults in values are
reported level by level, from the outermost node inwards. -/

namespace Schemata.Yaml

/-- A fault in a value, and how many levels below a node it lies. -/
structure Misfit where
  level : Nat
  fault : Fault
  deriving DecidableEq, Repr

def Misfit.deeper (m : Misfit) : Misfit := { m with level := m.level + 1 }

/-- Of several misfits the first one of the least level. -/
def Misfit.first? (misfits : List Misfit) : Option Misfit :=
  let earlier (first? : Option Misfit) (m : Misfit) : Option Misfit :=
    match first? with
    | some first => if m.level < first.level then some m else some first
    | none => some m
  misfits.foldl earlier none

mutual

/-- A node with its place, its tag, its content and its value; a misfit says that there is no
value. -/
inductive Node where
  | mk (place : Place) (tag : Tag) (content : Content) (value : Json) (misfit? : Option Misfit)

/-- The content of a node. The entries of a mapping are those that it ends up with, others merged
in. -/
inductive Content where
  | scalar (text : String)
  | sequence (items : List Node)
  | mapping (entries : Except Fault (List (Node × Node)))

end

namespace Node

def place : Node → Place
  | mk place .. => place

def tag : Node → Tag
  | mk _ tag .. => tag

def content : Node → Content
  | mk _ _ content .. => content

def value : Node → Json
  | mk _ _ _ value _ => value

def misfit? : Node → Option Misfit
  | mk _ _ _ _ misfit? => misfit?

def kind (n : Node) : NodeKind :=
  match n.content with
  | .scalar _ => .scalar
  | .sequence _ => .sequence
  | .mapping _ => .mapping

/-- A node without a value. -/
def unfit (place : Place) (tag : Tag) (content : Content) (level : Nat) (fault : Fault) : Node :=
  mk place tag content .null (some ⟨level, fault⟩)

/-- What is wrong with a node of a kind that its tag does not fit, and how many levels below it that
shows. -/
def wrongKind (place : Place) (tag : Tag) (kind : NodeKind) : Nat × Fault :=
  let alone (wanted : String) : Fault := .alone (.wrongKind wanted kind) place
  match tag with
  | .seq => (1, alone "a sequence node")
  | .map | .set => (1, alone "a mapping node")
  | .omap =>
    (1, .during (.constructing "an ordered map") place (.wrongKind "a sequence" kind) place)
  | .pairs => (1, .during (.constructing "pairs") place (.wrongKind "a sequence" kind) place)
  | .merge | .value | .other _ => (0, .alone (.unknownTag tag.name) place)
  | _ => (0, alone "a scalar node")

private def misplaced (place : Place) (tag : Tag) (content : Content) (kind : NodeKind) : Node :=
  let (level, fault) := wrongKind place tag kind
  unfit place tag content level fault

def scalar (place : Place) (tag : Tag) (text : String) : Node :=
  match tag.scalarValue? text with
  | some (.ok value) => mk place tag (.scalar text) value none
  | some (.error message) => unfit place tag (.scalar text) 0 (.value message)
  | none => misplaced place tag (.scalar text) .scalar

/-- The same node with other content. -/
def withContent (n : Node) (content : Content) : Node := mk n.place n.tag content n.value n.misfit?

/-- The single entry of a mapping that stands for a pair. -/
def pair (activity : Activity) (since : Place) (n : Node) : Except Fault (Node × Node) :=
  let fail (cause : Cause) : Except Fault (Node × Node) :=
    .error (.during activity since cause n.place)
  match n.content with
  | .mapping (.ok [entry]) => .ok entry
  | .mapping (.ok entries) => fail (.severalItems entries.length)
  | .mapping (.error fault) => .error fault
  | _ => fail (.wrongKind "a mapping of length 1" n.kind)

/-- A list of pairs, each one written as a mapping. -/
private def pairList (place : Place) (tag : Tag) (activity : Activity) (items : List Node) : Node :=
  match items.mapM (pair activity place) with
  | .error fault => unfit place tag (.sequence items) 1 fault
  | .ok pairs =>
    let misfits := pairs.flatMap fun (key, value) => key.misfit?.toList ++ value.misfit?.toList
    mk place tag (.sequence items) (.arr (pairs.map fun (key, value) =>
      .arr [key.value, value.value]))
      ((Misfit.first? misfits).map Misfit.deeper)

def sequence (place : Place) (tag : Tag) (items : List Node) : Node :=
  match tag with
  | .seq => mk place tag (.sequence items) (.arr (items.map value))
      ((Misfit.first? (items.filterMap misfit?)).map Misfit.deeper)
  | .omap => pairList place tag (.constructing "an ordered map") items
  | .pairs => pairList place tag (.constructing "pairs") items
  | _ => misplaced place tag (.sequence items) .sequence

/-- The entries that a node brings in where it is merged into a mapping. Of several mappings in a
list the last one comes first. -/
def mergedEntries (since : Place) (n : Node) : Except Fault (List (Node × Node)) :=
  let fail {α : Type} (wanted : String) (n : Node) : Except Fault α :=
    .error (.during (.constructing "a mapping") since (.wrongKind wanted n.kind) n.place)
  match n.content with
  | .mapping entries => entries
  | .sequence items => do
    let lists ← items.mapM fun item => match item.content with
      | .mapping entries => entries
      | _ => fail "a mapping for merging" item
    return lists.reverse.flatten
  | .scalar _ => fail "a mapping or list of mappings for merging" n

/-- The entries of a mapping behind those that are merged in. An equals sign as a key is plain
text. -/
def allEntries (place : Place) (entries : List (Node × Node)) :
    Except Fault (List (Node × Node)) := do
  let merged ← (entries.filter fun entry => entry.1.tag == .merge).mapM fun entry =>
    mergedEntries place entry.2
  let own := (entries.filter fun entry => entry.1.tag != .merge).map fun (key, value) =>
    match key.tag, key.content with
    | .value, .scalar text => (scalar key.place .str text, value)
    | _, _ => (key, value)
  return merged.flatten ++ own

/-- Whether members can have a node for their name; collections are no names. -/
def isUsableKey (n : Node) : Bool := !([.seq, .map, .set, .omap, .pairs].contains n.tag)

/-- The object with these entries. A repeated key keeps its first place and takes the last value. -/
def objectOf (entries : List (Json × Json)) : Json :=
  let put (entries : List (Json × Json)) (entry : Json × Json) : List (Json × Json) :=
    if entries.any fun other => other.1.same entry.1 then
      entries.map fun other => if other.1.same entry.1 then (other.1, entry.2) else other
    else entries ++ [entry]
  let distinct := entries.foldl put []
  let members := Json.named distinct
  if members.length = distinct.length then .obj members else .mixed distinct

/-- What is wrong with the entries of a mapping, level by level. -/
def entryMisfits (place : Place) (entries : List (Node × Node)) : List Misfit :=
  entries.flatMap fun (key, value) =>
    let unusable : List Misfit :=
      if key.isUsableKey then []
      else [⟨0, .during (.constructing "a mapping") place .unusableKey key.place⟩]
    key.misfit?.toList ++ unusable ++ value.misfit?.toList

/-- The text under an equals sign, which stands for its mapping where a scalar is asked for. -/
def textOf? (entries : List (Node × Node)) : Option String :=
  entries.findSome? fun (key, value) =>
    match key.tag, value.content with
    | .value, .scalar text => some text
    | _, _ => none

def mapping (place : Place) (tag : Tag) (entries : List (Node × Node)) : Node :=
  let all := allEntries place entries
  match tag, all with
  | .map, .ok entries | .set, .ok entries =>
    let value := match tag with
      | .map => objectOf (entries.map fun (key, value) => (key.value, value.value))
      | _ => .foreign "set" "" (.arr (entries.map fun entry => entry.1.value))
    mk place tag (.mapping all) value
      ((Misfit.first? (entryMisfits place entries)).map Misfit.deeper)
  | .map, .error fault | .set, .error fault => unfit place tag (.mapping all) 1 fault
  | _, _ => match (tag.scalarValue? "").isSome, textOf? entries with
    | true, some text => (scalar place tag text).withContent (.mapping all)
    | _, _ => misplaced place tag (.mapping all) .mapping

/-- A node that is not written out. -/
def empty (place : Place) : Node := scalar place .null ""

end Node

end Schemata.Yaml
