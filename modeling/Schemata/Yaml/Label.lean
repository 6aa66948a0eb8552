import Schemata.Yaml.Literal
import Schemata.Yaml.Quoted

/-! What stands beside values: names of nodes and references to them, tags, and the directives in
front of a document. -/

namespace Schemata.Yaml

/-- ASCII letters, digits, hyphens and underscores make up names. -/
def isNameChar (c : Char) : Bool := c.isAlphanum || c == '-' || c == '_'

/-- The characters of a tag besides letters and digits; a percent sign starts an escape. -/
def isTagChar (c : Char) : Bool :=
  c.isAlphanum || "-;/?:@&=+$,_.!~*'()[]%".toList.contains c

private def fault (what : String) (since : Place) (wanted : String) (c : Cursor) : Fault :=
  .during (.scanning what) since (.expected wanted c.head?) c.place

private def nameWanted : String := "alphabetic or numeric character"

/-- The name behind the sign of an anchor or an alias. -/
def label (what : String) (c : Cursor) : Except Fault (String × Cursor) :=
  let (name, after) := c.next.run isNameChar
  let closes (char : Char) : Bool := isSpace char || "?:,]\x7d%@\x60".toList.contains char
  if name.isEmpty || !after.endsOrMeets closes then .error (fault what c.place nameWanted after)
  else .ok (.ofList name, after)

/-- A handle: an exclamation mark, or a name between two. -/
def handle (what : String) (since : Place) (c : Cursor) : Except Fault (String × Cursor) :=
  let (name, after) := c.next.run isNameChar
  if c.head? != some '!' then .error (fault what since "'!'" c)
  else if c.next.head? == some ' ' then .ok ("!", c.next)
  else if after.head? == some '!' then .ok (.ofList ('!' :: name ++ ['!']), after.next)
  else .error (fault what since "'!'" after)

/-- The bytes that escapes in a row stand for. -/
def tagBytes (what : String) (since : Place) : Nat → Cursor → Except Fault (List UInt8 × Cursor)
  | 0, c => .ok ([], c)
  | fuel + 1, c =>
    match c.rest with
    | '%' :: rest =>
      match hexCode 2 rest with
      | .ok code => do
        let (bytes, after) ← tagBytes what since fuel (c.skip 3)
        return (UInt8.ofNat code :: bytes, after)
      | .error found? => .error (.during (.scanning what) since
          (.expected "URI escape sequence of 2 hexadecimal numbers" found?) c.next.place)
    | _ => .ok ([], c)

/-- Goes on with the text of a tag, its characters so far in reverse. -/
def tagTextFrom (what : String) (since : Place) :
    Nat → List Char → Cursor → Except Fault (List Char × Cursor)
  | 0, read, c => .ok (read.reverse, c)
  | fuel + 1, read, c =>
    match c.rest with
    | '%' :: _ => do
      let (bytes, after) ← tagBytes what since c.rest.length c
      match String.fromUTF8? ⟨bytes.toArray⟩ with
      | some text => tagTextFrom what since fuel (text.toList.reverse ++ read) after
      | none => throw (fault what since "URI" c)
    | char :: _ =>
      if isTagChar char then tagTextFrom what since fuel (char :: read) c.next
      else .ok (read.reverse, c)
    | [] => .ok (read.reverse, c)

/-- The text of a tag, or the start of one. -/
def tagText (what : String) (since : Place) (c : Cursor) : Except Fault (String × Cursor) := do
  let (text, after) ← tagTextFrom what since c.rest.length [] c
  if after.place = c.place then
    throw (.during (.parsing what) since (.expected "URI" c.head?) c.place)
  return (.ofList text, after)

/-- A tag: a whole one between angle brackets, one behind a handle, or a lone exclamation mark. -/
def tag (c : Cursor) : Except Fault (Sign × Cursor) := do
  let since := c.place
  let what := "a tag"
  let (sign, after) ← match c.next.head? with
    | some '<' => do
      let (suffix, after) ← tagText what since (c.skip 2)
      if after.head? != some '>' then
        throw (.during (.parsing what) since (.expected "'>'" after.head?) after.place)
      pure (Sign.tag none suffix, after.next)
    | _ =>
      if c.next.endsOrMeets isSpace then pure (Sign.tag none "!", c.next)
      else
        let word := c.next.rest.takeWhile fun char => !isGap char
        let (name, start) ← if word.contains '!' then handle what since c else pure ("!", c.next)
        let (suffix, after) ← tagText what since start
        pure (Sign.tag (some name) suffix, after)
  if after.endsOrMeets isGap then return (sign, after)
  throw (fault what since "' '" after)

private def directiveFault (since : Place) (wanted : String) (c : Cursor) : Fault :=
  fault "a directive" since wanted c

/-- A number of a version. -/
def versionNumber (since : Place) (c : Cursor) : Except Fault (Nat × Cursor) :=
  let (digits, after) := c.run Char.isDigit
  if digits.isEmpty then .error (directiveFault since "a digit" c)
  else .ok (Decimal.natOfDigits digits, after)

def versionDirective (since : Place) (c : Cursor) : Except Fault (Directive × Cursor) := do
  let (major, c) ← versionNumber since (c.skipWhile (· == ' '))
  if c.head? != some '.' then throw (directiveFault since "a digit or '.'" c)
  let (_, c) ← versionNumber since c.next
  if c.endsOrMeets isGap then return (.version major, c)
  throw (directiveFault since "a digit or ' '" c)

def handleDirective (since : Place) (c : Cursor) : Except Fault (Directive × Cursor) := do
  let what := "a directive"
  let (name, c) ← handle what since (c.skipWhile (· == ' '))
  if c.head? != some ' ' then throw (directiveFault since "' '" c)
  let (expansion, c) ← tagText what since (c.skipWhile (· == ' '))
  if c.endsOrMeets isGap then return (.handle name expansion, c)
  throw (directiveFault since "' '" c)

/-- A directive, from its percent sign to the end of its line. Those of unknown names are passed
over. -/
def directive (c : Cursor) : Except Fault (Directive × Cursor) := do
  let since := c.place
  let (name, c) := c.next.run isNameChar
  if name.isEmpty || !c.endsOrMeets isGap then throw (directiveFault since nameWanted c)
  let (d, c) ← match String.ofList name with
    | "YAML" => versionDirective since c
    | "TAG" => handleDirective since c
    | _ => pure (Directive.other, c.skipWhile fun char => !isBreak char)
  return (d, ← c.endLine "a directive" since)

end Schemata.Yaml
