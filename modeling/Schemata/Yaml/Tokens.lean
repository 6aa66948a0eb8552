import Schemata.Yaml.Label
import Schemata.Yaml.Plain

/-! From a text to its tokens. In block collections the indentation says where collections start
and end; whether a node is the name of a member shows only at the colon behind it, on the same
line. -/

namespace Schemata.Yaml

/-- A node that turns out to be the name of a member if a colon follows. It is required where
nothing but a name can stand. -/
structure Candidate where
  /-- How many brackets and braces are open around it. -/
  depth : Nat
  /-- How many tokens stand in front of it. -/
  number : Nat
  required : Bool
  place : Place
  deriving DecidableEq, Repr

/-- What has been read so far. -/
structure Layout where
  cursor : Cursor
  tokens : Array Token
  /-- How many brackets and braces are open. -/
  depth : Nat
  /-- The columns of the open block collections, the innermost first. -/
  columns : List Nat
  /-- Whether the name of a member may start here. -/
  nameAllowed : Bool
  /-- The names that may still turn up, at most one for each depth. -/
  candidates : List Candidate
  deriving Repr

namespace Layout

def ofText (text : List Char) : Layout where
  cursor := .ofText text
  tokens := #[]
  depth := 0
  columns := []
  nameAllowed := true
  candidates := []

def place (l : Layout) : Place := l.cursor.place

def inFlow (l : Layout) : Bool := l.depth != 0

/-- The least column of text that belongs to the innermost block collection. -/
def least (l : Layout) : Nat := l.columns.head?.elim 0 (· + 1)

/-- Adds a token that lies between the present place and another one, and goes on there. -/
def push (l : Layout) (sign : Sign) (after : Cursor) : Layout :=
  { l with cursor := after, tokens := l.tokens.push ⟨sign, l.place, after.place⟩ }

/-- Adds a token of so many characters. -/
def pushSign (l : Layout) (sign : Sign) (length : Nat) : Layout :=
  l.push sign (l.cursor.skip length)

/-- Adds a token without text. -/
def mark (l : Layout) (sign : Sign) : Layout := l.push sign l.cursor

def fail {α : Type} (l : Layout) (cause : Cause) : Except Fault α := .error (.alone cause l.place)

/-- A name that is needed and does not come. -/
def noName (l : Layout) (candidate : Candidate) : Fault :=
  .during (.scanning "a simple key") candidate.place .noColon l.place

/-- Whether a name cannot turn up any more: it stands on one line, and not too far away. -/
def isStale (l : Layout) (candidate : Candidate) : Bool :=
  candidate.place.line != l.place.line || 1024 < l.place.index - candidate.place.index

/-- Gives the names up that cannot turn up any more. -/
def withoutStale (l : Layout) : Except Fault Layout :=
  match l.candidates.find? fun candidate => candidate.required && l.isStale candidate with
  | some candidate => .error (l.noName candidate)
  | none => .ok { l with candidates := l.candidates.filter fun candidate => !l.isStale candidate }

/-- The name that a colon would close here. -/
def candidate? (l : Layout) : Option Candidate :=
  l.candidates.find? fun candidate => candidate.depth == l.depth

def withoutCandidate (l : Layout) : Layout :=
  { l with candidates := l.candidates.filter fun candidate => candidate.depth != l.depth }

/-- Gives the name up that a colon would close here. -/
def dropCandidate (l : Layout) : Except Fault Layout :=
  match l.candidate?.filter (·.required) with
  | some candidate => .error (l.noName candidate)
  | none => .ok l.withoutCandidate

/-- Notes that the next token may start a name. -/
def noteCandidate (l : Layout) : Except Fault Layout :=
  if l.nameAllowed then do
    let required := !l.inFlow && l.columns.head? == some l.place.column
    let l ← l.dropCandidate
    return { l with candidates := ⟨l.depth, l.tokens.size, required, l.place⟩ :: l.candidates }
  else .ok l

/-- Goes past blanks, comments and line breaks, and past a byte order mark at the start. Behind a
line break in block collections a name may start. -/
def skipToToken (fuel : Nat) (l : Layout) : Layout :=
  let start :=
    if l.place.index = 0 ∧ l.cursor.head? = some '\uFEFF' then l.cursor.next else l.cursor
  let cursor := (start.skipWhile (· == ' ')).skipComment
  match fuel with
  | 0 => { l with cursor }
  | fuel + 1 =>
    if cursor.meets isBreak then
      skipToToken fuel
        { l with cursor := cursor.next, nameAllowed := l.nameAllowed || !l.inFlow }
    else { l with cursor }

/-- Ends the block collections for which a test on their column holds; flow collections do not care
for indentation. -/
def closeBlocks (ends : Nat → Bool) (l : Layout) : Layout :=
  if l.inFlow then l
  else
    let closed := (l.columns.takeWhile ends).map fun _ => Token.mk .blockEnd l.place l.place
    { l with tokens := l.tokens ++ closed.toArray, columns := l.columns.dropWhile ends }

/-- Whether a block collection starts at a column. -/
def opensBlock (l : Layout) (column : Nat) : Bool := l.columns.head?.all (· < column)

/-- Starts a block collection here, when the column says so. -/
def openBlock (l : Layout) (sign : Sign) : Layout :=
  if l.opensBlock l.place.column then
    { l.mark sign with columns := l.place.column :: l.columns }
  else l

/-- Ends everything in front of a directive or of the mark of a document. -/
def closeAll (l : Layout) : Except Fault Layout := do
  let l ← (l.closeBlocks fun _ => true).dropCandidate
  return { l with nameAllowed := false }

def readEnd (l : Layout) : Except Fault Layout := do
  let l ← l.closeAll
  return { l.mark .streamEnd with candidates := [] }

def readDirective (l : Layout) : Except Fault Layout := do
  let l ← l.closeAll
  let (d, after) ← directive l.cursor
  return l.push (.directive d) after

def readSeparator (l : Layout) (sign : Sign) : Except Fault Layout := do
  return (← l.closeAll).pushSign sign 3

/-- A bracket or a brace that opens; the collection may itself be a name. -/
def readOpening (l : Layout) (sign : Sign) : Except Fault Layout := do
  let l ← l.noteCandidate
  return { l.pushSign sign 1 with depth := l.depth + 1, nameAllowed := true }

def readClosing (l : Layout) (sign : Sign) : Except Fault Layout := do
  let l ← l.dropCandidate
  return { l.pushSign sign 1 with depth := l.depth - 1, nameAllowed := false }

def readFlowEntry (l : Layout) : Except Fault Layout := do
  return { (← l.dropCandidate).pushSign .flowEntry 1 with nameAllowed := true }

/-- In block collections, starts one here unless that is not allowed. -/
def openBlockAt (l : Layout) (sign : Sign) (what : String) : Except Fault Layout :=
  if l.inFlow then .ok l
  else if l.nameAllowed then .ok (l.openBlock sign)
  else l.fail (.misplaced what)

def readBlockEntry (l : Layout) : Except Fault Layout := do
  let l ← l.openBlockAt .blockSequence "sequence entries"
  return { (← l.dropCandidate).pushSign .blockEntry 1 with nameAllowed := true }

def readKey (l : Layout) : Except Fault Layout := do
  let l ← l.openBlockAt .blockMapping "mapping keys"
  return { (← l.dropCandidate).pushSign .key 1 with nameAllowed := !l.inFlow }

/-- A colon. What stands in front of it becomes the name of a member, and may be the first one of
its mapping. -/
def readValue (l : Layout) : Except Fault Layout :=
  match l.candidate? with
  | some candidate =>
    let token (sign : Sign) : Token := ⟨sign, candidate.place, candidate.place⟩
    let column := candidate.place.column
    let opens := !l.inFlow && l.opensBlock column
    let signs := if opens then [.blockMapping, .key] else [.key]
    let insert (sign : Sign) (tokens : Array Token) : Array Token :=
      tokens.insertIdxIfInBounds candidate.number (token sign)
    let named := { l.withoutCandidate with
      tokens := signs.foldr insert l.tokens
      columns := if opens then column :: l.columns else l.columns
      nameAllowed := false }
    .ok (named.pushSign .value 1)
  | none => do
    let l ← l.openBlockAt .blockMapping "mapping values"
    return { (← l.dropCandidate).pushSign .value 1 with nameAllowed := !l.inFlow }

/-- A token that is a node or starts one. -/
def readNode (l : Layout) (read : Layout → Except Fault (Sign × Cursor)) : Except Fault Layout := do
  let l ← l.noteCandidate
  let (sign, after) ← read l
  return { l.push sign after with nameAllowed := false }

def readLabel (l : Layout) (what : String) (sign : String → Sign) : Except Fault Layout :=
  l.readNode fun l => do
    let (name, after) ← label what l.cursor
    return (sign name, after)

def readQuoted (l : Layout) (quote : Quote) : Except Fault Layout :=
  l.readNode fun l => do
    let (text, after) ← quotedScalar quote l.cursor
    return (.scalar text false, after)

def readBlockScalar (l : Layout) (isFolded : Bool) : Except Fault Layout := do
  let l ← l.dropCandidate
  let (text, after) ← blockScalar isFolded l.least l.cursor
  return { l.push (.scalar text false) after with nameAllowed := true }

/-- Plain text; when it ends a line, a name may start behind it. -/
def readPlain (l : Layout) : Except Fault Layout := do
  let l ← l.noteCandidate
  let plain := Plain.ofCursor l.inFlow l.least l.cursor
  let token : Token := ⟨.scalar plain.text true, l.place, plain.stop⟩
  return { l with
    cursor := plain.after, tokens := l.tokens.push token, nameAllowed := plain.crosses }

/-- The characters that start no plain scalar. -/
def indicators : List Char := "-?:,[]\x7b\x7d#&*!|>'\"%@\x60".toList

/-- Whether plain text starts here. A hyphen may start it before anything but a space, and so may a
question mark or a colon in block collections. -/
def startsPlain (l : Layout) (first : Char) (closed : Bool) : Bool :=
  !(isSpace first || indicators.contains first)
    || (!closed && (first == '-' || (!l.inFlow && (first == '?' || first == ':'))))

/-- Reads the next token where it starts. -/
def readToken (l : Layout) : Except Fault Layout :=
  match l.cursor.rest with
  | [] => l.readEnd
  | first :: rest =>
    let closed := rest.head?.all isSpace
    let atStart := l.place.column = 0
    match first with
    | '[' => l.readOpening .flowSequence
    | '{' => l.readOpening .flowMapping
    | ']' => l.readClosing .flowSequenceEnd
    | '}' => l.readClosing .flowMappingEnd
    | ',' => l.readFlowEntry
    | '*' => l.readLabel "an alias" .aliasOf
    | '&' => l.readLabel "an anchor" .anchor
    | '!' => l.readNode fun l => tag l.cursor
    | '\'' => l.readQuoted .single
    | '"' => l.readQuoted .double
    | _ =>
      if first = '%' ∧ atStart then l.readDirective
      else if atStart ∧ l.cursor.parts '-' then l.readSeparator .documentStart
      else if atStart ∧ l.cursor.parts '.' then l.readSeparator .documentEnd
      else if first = '-' ∧ closed then l.readBlockEntry
      else if first = '?' ∧ (l.inFlow ∨ closed) then l.readKey
      else if first = ':' ∧ (l.inFlow ∨ closed) then l.readValue
      else if (first = '|' ∨ first = '>') ∧ !l.inFlow then l.readBlockScalar (first == '>')
      else if l.startsPlain first closed then l.readPlain
      else .error (.marked (some (.scanning "for the next token", none)) (.noToken first) l.place)

def isOver (l : Layout) : Bool := l.tokens.back?.any fun token => token.sign == .streamEnd

/-- Reads the next token, and the ends of block collections in front of it. -/
def step (l : Layout) : Except Fault Layout := do
  let l ← (l.skipToToken l.cursor.rest.length).withoutStale
  let column := l.place.column
  let l ← (l.closeBlocks fun opened => column < opened).readToken
  if l.isOver then return l else l.withoutStale

/-- How many tokens are settled: no name can turn up in front of them. -/
def settled (l : Layout) : Nat :=
  (l.candidates.map Candidate.number).foldl min l.tokens.size

end Layout

/-- The tokens of a text, up to the first fault if there is one. -/
structure Tokens where
  tokens : List Token
  fault? : Option Fault
  deriving Repr

/-- Reads on to the end of a text. A step that fails leaves only the tokens that were settled before
it. -/
def Layout.finish : Nat → Layout → Tokens
  | 0, l => ⟨l.tokens.toList, none⟩
  | fuel + 1, l =>
    match l.step with
    | .error fault => ⟨l.tokens.toList.take l.settled, some fault⟩
    | .ok l => if l.isOver then ⟨l.tokens.toList, none⟩ else finish fuel l

/-- Reads all tokens; every one but the last takes up some text. -/
def Tokens.ofText (text : List Char) : Tokens := (Layout.ofText text).finish (text.length + 1)

end Schemata.Yaml
