import Schemata.Keyed
import Schemata.Yaml.Node
import Schemata.Yaml.Tokens

/-! From tokens to the one document that a text may hold. Nodes can be named by anchors, and aliases
stand for the node of a name. -/

namespace Schemata.Yaml

/-- The tokens ahead, what stands behind the last of them, the nodes that have names, and what the
handles of tags stand for. -/
structure Source where
  tokens : List Token
  fault : Fault
  anchors : Keyed Node
  handles : Keyed String

abbrev Reading := StateT Source (Except Fault)

namespace Reading

/-- The handles that need no directive. -/
def usualHandles : Keyed String := [("!", "!"), ("!!", Tag.family)]

def peek : Reading Token := do
  let source ← get
  match source.tokens with
  | token :: _ => return token
  | [] => throw source.fault

def advance : Reading Unit := modify fun source => { source with tokens := source.tokens.drop 1 }

/-- What stands in front of a node: a name, and a tag as it is written, with its place. -/
structure Properties where
  start? : Option Place
  anchor? : Option String
  tag? : Option (Option String × String × Place)
  deriving DecidableEq, Repr

def Properties.none : Properties := ⟨.none, .none, .none⟩

/-- Reads a name and a tag, in any order. -/
def properties : Reading Properties := do
  let first ← peek
  match first.sign with
  | .anchor name =>
    advance
    let next ← peek
    match next.sign with
    | .tag handle? suffix =>
      advance
      return ⟨first.start, name, some (handle?, suffix, next.start)⟩
    | _ => return ⟨first.start, name, .none⟩
  | .tag handle? suffix =>
    advance
    let next ← peek
    match next.sign with
    | .anchor name =>
      advance
      return ⟨first.start, name, some (handle?, suffix, first.start)⟩
    | _ => return ⟨first.start, .none, some (handle?, suffix, first.start)⟩
  | _ => return .none

/-- The full name of a tag. -/
def tagName? (p : Properties) : Reading (Option String) := do
  match p.tag? with
  | .none => return .none
  | some (.none, suffix, _) => return suffix
  | some (some handle, suffix, place) =>
    match (← get).handles.lookup handle with
    | some expansion => return expansion ++ suffix
    | .none =>
      throw (.during (.parsing "a node") (p.start?.getD place) (.unknownHandle handle) place)

/-- A name may be given once. -/
def checkAnchor (anchor? : Option String) (place : Place) : Reading Unit := do
  match anchor? with
  | .none => return
  | some name => match (← get).anchors.lookup name with
    | some earlier => throw (.during (.anchoring name) earlier.place .repeatedAnchor place)
    | .none => return

/-- Gives a name to a node. -/
def remember (anchor? : Option String) (node : Node) : Reading Unit := do
  match anchor? with
  | .none => return
  | some name => modify fun source => { source with anchors := source.anchors.put name node }

/-- The node of a name. -/
def aliased (name : String) (place : Place) : Reading Node := do
  match (← get).anchors.lookup name with
  | some node => return node
  | .none => throw (.alone (.unknownAlias name) place)

/-- Where a node stands: by itself or in a block sequence, in a block mapping, whose sequences need
no indentation of their own, or in a flow collection. -/
inductive Context where
  | block | member | flow
  deriving DecidableEq, Repr

/-- The signs behind which a member of a block mapping is empty. -/
def endsMember : Sign → Bool
  | .key | .value | .blockEnd => true
  | _ => false

/-- The signs behind which a member of a flow collection is empty, for the sign that closes it. -/
def endsFlow (closing : Sign) (sign : Sign) : Bool := sign == .flowEntry || sign == closing

/-- A plain scalar without a tag, or with a tag that says nothing, has the tag that its form
tells. -/
def scalarTag (tag? : Option String) (text : String) (isPlain : Bool) : Tag :=
  match tag? with
  | .none => if isPlain then .ofPlain text else .str
  | some "!" => .ofPlain text
  | some name => .ofName name

def collectionTag (usual : Tag) (tag? : Option String) : Tag :=
  (tag?.filter (· != "!")).elim usual Tag.ofName

/-- Reads a collection under a name; while it is read, the name stands for an empty one. -/
def named {α : Type} (anchor? : Option String) (place : Place) (build : List α → Node)
    (read : Reading (List α)) : Reading Node := do
  checkAnchor anchor? place
  remember anchor? (build [])
  let node := build (← read)
  remember anchor? node
  return node

mutual

/-- Reads a node. Every call takes one unit of fuel; each token needs a few of them. -/
def node : Nat → Context → Reading Node
  | 0, _ => do throw (← get).fault
  | fuel + 1, context => do
    let first ← peek
    if let .aliasOf name := first.sign then
      advance
      return ← aliased name first.start
    let p ← properties
    let tag? ← tagName? p
    let token ← peek
    let place := p.start?.getD token.start
    let leaf (tag : Tag) (text : String) : Reading Node := do
      checkAnchor p.anchor? place
      let leaf := Node.scalar place tag text
      remember p.anchor? leaf
      return leaf
    let sequence := named p.anchor? place (Node.sequence place (collectionTag .seq tag?))
    let mapping := named p.anchor? place (Node.mapping place (collectionTag .map tag?))
    match token.sign, context with
    | .scalar text isPlain, _ => do
      advance
      leaf (scalarTag tag? text isPlain) text
    | .blockEntry, .member => sequence (memberItems fuel [])
    | .flowSequence, _ => sequence (advance *> flowItems fuel token.start true [])
    | .flowMapping, _ => mapping (advance *> flowEntries fuel token.start true [])
    | .blockSequence, .block | .blockSequence, .member =>
      sequence (advance *> blockItems fuel token.start [])
    | .blockMapping, .block | .blockMapping, .member =>
      mapping (advance *> blockEntries fuel token.start [])
    | _, _ =>
      if p.start?.isSome then leaf (scalarTag tag? "" true) ""
      else
        let what := if context = .flow then "a flow node" else "a block node"
        throw (.during (.parsing what) place (.unexpected "the node content" token.sign)
          token.start)

/-- Reads the node behind a token, which is empty in front of certain signs. -/
def nodeBehind : Nat → Token → (Sign → Bool) → Context → Reading Node
  | 0, _, _, _ => do throw (← get).fault
  | fuel + 1, token, ends, context => do
    let next ← peek
    if ends next.sign then return .empty token.stop
    else node fuel context

/-- Reads a name and a value, from the sign of the name on. -/
def member : Nat → (Sign → Bool) → Context → Reading (Node × Node)
  | 0, _, _ => do throw (← get).fault
  | fuel + 1, ends, context => do
    let sign ← peek
    advance
    let key ← nodeBehind fuel sign (fun next => next == .value || ends next) context
    let next ← peek
    if next.sign = .value then
      advance
      return (key, ← nodeBehind fuel next ends context)
    else return (key, .empty next.start)

/-- The items of a block sequence, those before them in reverse. -/
def blockItems : Nat → Place → List Node → Reading (List Node)
  | 0, _, _ => do throw (← get).fault
  | fuel + 1, since, items => do
    let token ← peek
    match token.sign with
    | .blockEntry => do
      advance
      let ends (sign : Sign) : Bool := sign == .blockEntry || sign == .blockEnd
      let item ← nodeBehind fuel token ends .block
      blockItems fuel since (item :: items)
    | .blockEnd => do
      advance
      return items.reverse
    | sign => throw (.during (.parsing "a block collection") since
        (.unexpected "<block end>" sign) token.start)

/-- The items of a sequence that is not indented below its name. -/
def memberItems : Nat → List Node → Reading (List Node)
  | 0, _ => do throw (← get).fault
  | fuel + 1, items => do
    let token ← peek
    if token.sign = .blockEntry then
      advance
      let ends (sign : Sign) : Bool := sign == .blockEntry || endsMember sign
      let item ← nodeBehind fuel token ends .block
      memberItems fuel (item :: items)
    else return items.reverse

def blockEntries : Nat → Place → List (Node × Node) → Reading (List (Node × Node))
  | 0, _, _ => do throw (← get).fault
  | fuel + 1, since, entries => do
    let token ← peek
    match token.sign with
    | .key => do
      let entry ← member fuel endsMember .member
      blockEntries fuel since (entry :: entries)
    | .blockEnd => do
      advance
      return entries.reverse
    | sign => throw (.during (.parsing "a block mapping") since
        (.unexpected "<block end>" sign) token.start)

/-- The items of a flow sequence. One with a name is a mapping of its own. -/
def flowItems : Nat → Place → Bool → List Node → Reading (List Node)
  | 0, _, _, _ => do throw (← get).fault
  | fuel + 1, since, isFirst, items => do
    let token ← peek
    match token.sign, isFirst with
    | .flowSequenceEnd, _ => do
      advance
      return items.reverse
    | .flowEntry, false => do
      advance
      let next ← peek
      if next.sign = .flowSequenceEnd then flowItems fuel since false items
      else do
        let item ← flowItem fuel
        flowItems fuel since false (item :: items)
    | _, true => do
      let item ← flowItem fuel
      flowItems fuel since false (item :: items)
    | sign, false => throw (.during (.parsing "a flow sequence") since
        (.unexpectedInFlow "',' or ']'" sign) token.start)

def flowItem : Nat → Reading Node
  | 0 => do throw (← get).fault
  | fuel + 1 => do
    let token ← peek
    if token.sign = .key then
      let entry ← member fuel (endsFlow .flowSequenceEnd) .flow
      return .mapping token.start .map [entry]
    else node fuel .flow

/-- The entries of a flow mapping. A name may stand there alone. -/
def flowEntries : Nat → Place → Bool → List (Node × Node) → Reading (List (Node × Node))
  | 0, _, _, _ => do throw (← get).fault
  | fuel + 1, since, isFirst, entries => do
    let token ← peek
    match token.sign, isFirst with
    | .flowMappingEnd, _ => do
      advance
      return entries.reverse
    | .flowEntry, false => do
      advance
      let next ← peek
      if next.sign = .flowMappingEnd then flowEntries fuel since false entries
      else do
        let entry ← flowEntry fuel
        flowEntries fuel since false (entry :: entries)
    | _, true => do
      let entry ← flowEntry fuel
      flowEntries fuel since false (entry :: entries)
    | sign, false => throw (.during (.parsing "a flow mapping") since
        (.unexpectedInFlow "',' or '\x7d'" sign) token.start)

def flowEntry : Nat → Reading (Node × Node)
  | 0 => do throw (← get).fault
  | fuel + 1 => do
    let token ← peek
    if token.sign = .key then member fuel (endsFlow .flowMappingEnd) .flow
    else
      let key ← node fuel .flow
      return (key, .empty (← peek).start)

end

/-- Takes all tokens of a sign away. -/
def skipAll (sign : Sign) : Reading Unit :=
  modify fun source =>
    { source with tokens := source.tokens.dropWhile fun token => token.sign == sign }

/-- The directives in front of a document; each may be given once. -/
def directives : Nat → Bool → Keyed String → Reading (Keyed String)
  | 0, _, handles => return handles
  | fuel + 1, hasVersion, handles => do
    let token ← peek
    match token.sign with
    | .directive d => do
      advance
      match d with
      | .version major =>
        if hasVersion then throw (.alone .repeatedVersion token.start)
        if major ≠ 1 then throw (.alone .otherVersion token.start)
        directives fuel true handles
      | .handle name expansion =>
        if (handles.lookup name).isSome then throw (.alone (.repeatedHandle name) token.start)
        directives fuel hasVersion (handles.put name expansion)
      | .other => directives fuel hasVersion handles
    | _ => return handles

/-- Goes past the start of a document, unless the text ends; gives the place of the start. -/
def documentStart? : Reading (Option Place) := do
  skipAll .documentEnd
  let first ← peek
  if first.sign = .streamEnd then return none
  let handles ← directives (← get).tokens.length false []
  modify fun source => { source with handles := handles ++ usualHandles }
  let token ← peek
  if token.sign = .documentStart then
    advance
    return first.start
  throw (.alone (.unexpected "'<document start>'" token.sign) token.start)

/-- Whether a sign ends a document or starts another one. -/
def endsDocument : Sign → Bool
  | .directive _ | .documentStart | .documentEnd | .streamEnd => true
  | _ => false

/-- The root of the only document, or nothing for a text without one. -/
def document : Reading (Option Node) := do
  let fuel := 4 * (← get).tokens.length + 8
  let first ← peek
  let root? ← match first.sign with
    | .directive _ | .documentStart | .streamEnd => do
      match ← documentStart? with
      | none => pure none
      | some _ => do
        let next ← peek
        if endsDocument next.sign then pure (some (.empty next.start))
        else some <$> node fuel .block
    | _ => some <$> node fuel .block
  match root? with
  | none => return none
  | some root =>
    let _ ← peek
    match ← documentStart? with
    | none => return root
    | some place => throw (.during .document root.place .anotherDocument place)

end Reading

/-- The document that tokens make up. -/
def Tokens.document? (tokens : Tokens) : Except Fault (Option Node) :=
  let source : Source :=
    { tokens := tokens.tokens
      fault := tokens.fault?.getD (.alone .textEnd .start)
      anchors := []
      handles := Reading.usualHandles }
  (·.1) <$> Reading.document.run source

end Schemata.Yaml
