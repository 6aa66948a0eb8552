import Schemata.Yaml.Token

/-! Scalars that are made of whole lines, below a header. Either every line break is kept, or those
between lines that start with text are folded. -/

namespace Schemata.Yaml

/-- Goes past blanks, a comment and the line break, when nothing else is left of the line. -/
def Cursor.endLine (what : String) (since : Place) (c : Cursor) : Except Fault Cursor :=
  let rest := (c.skipWhile (· == ' ')).skipComment
  if rest.endsOrMeets isBreak then .ok rest.next
  else .error (.during (.scanning what) since
    (.expected "a comment or a line break" rest.head?) rest.place)

/-- What becomes of the line breaks at the end: one is left, none, or all. -/
inductive Chomping where
  | clip | strip | keep
  deriving DecidableEq, Repr

def Chomping.ofSign? : Char → Option Chomping
  | '+' => some keep
  | '-' => some strip
  | _ => none

/-- The header of a scalar of lines. -/
structure BlockHeader where
  chomping : Chomping
  indent? : Option Nat
  deriving DecidableEq, Repr

private def headerFault (since : Place) (cause : Cause) (place : Place) : Fault :=
  .during (.scanning "a block scalar") since cause place

/-- A sign for the line breaks at the end, if there is one. -/
def chomping? (c : Cursor) : Option Chomping × Cursor :=
  match c.head?.bind Chomping.ofSign? with
  | some chomping => (some chomping, c.next)
  | none => (none, c)

/-- A digit for the indentation, if there is one. -/
def indentDigit? (since : Place) (c : Cursor) : Except Fault (Option Nat × Cursor) :=
  match c.head? with
  | some '0' => .error (headerFault since .noIndent c.place)
  | some digit =>
    if '1' ≤ digit && digit ≤ '9' then .ok (some (digit.toNat - 48), c.next) else .ok (none, c)
  | none => .ok (none, c)

/-- Reads a header: the sign and the digit may stand in any order, and either may be left out. -/
def BlockHeader.ofCursor (since : Place) (c : Cursor) : Except Fault (BlockHeader × Cursor) := do
  let (before?, c) := chomping? c
  let (indent?, c) ← indentDigit? since c
  let (after?, c) := if before?.isNone && indent?.isSome then chomping? c else (none, c)
  if c.endsOrMeets isGap then
    let c ← c.endLine "a block scalar" since
    return (⟨(before?.or after?).getD .clip, indent?⟩, c)
  else throw (headerFault since (.expected "chomping or indentation indicators" c.head?) c.place)

/-- The breaks of empty lines, up to the first character behind an indentation. -/
def emptyLines (indent : Nat) : Nat → Cursor → List Char × Cursor
  | 0, c => ([], c)
  | fuel + 1, c =>
    let blanks := (c.rest.takeWhile (· == ' ')).length
    let c := c.skip (min blanks (indent - c.place.column))
    match c.rest with
    | [] => ([], c)
    | first :: _ =>
      if isBreak first then
        let (more, after) := emptyLines indent fuel c.next
        (keptBreak first :: more, after)
      else ([], c)

/-- The longest run of blanks among the first empty lines and the line behind them. -/
def widestBlanks (cs : List Char) : Nat :=
  let longest (widths : Nat × Nat) (c : Char) : Nat × Nat :=
    if c = ' ' then (max widths.1 (widths.2 + 1), widths.2 + 1) else (widths.1, 0)
  (cs.foldl longest (0, 0)).1

/-- The pieces of a scalar of lines so far in reverse, the last line break, and the breaks of the
empty lines behind it. -/
structure BlockText where
  pieces : List (List Char)
  last : List Char
  breaks : List Char
  deriving DecidableEq, Repr

/-- What joins two lines: nothing but a blank or the breaks of the lines between them where the
first break is folded. -/
def joint (isFolded : Bool) (last breaks : List Char) : List Char :=
  if isFolded && last == ['\n'] then if breaks.isEmpty then [' '] else breaks else last ++ breaks

/-- Whether a line of a scalar starts here. -/
def Cursor.isIndented (indent : Nat) (c : Cursor) : Bool :=
  c.place.column == indent && !c.rest.isEmpty

/-- Goes on with the lines at an indentation, from the start of one. -/
def blockLines (isFolded : Bool) (indent : Nat) : Nat → BlockText → Cursor → BlockText × Cursor
  | 0, text, c => (text, c)
  | fuel + 1, text, c =>
    let startsWithText := !c.meets isBlank
    let (line, c) := c.run fun char => !isBreak char
    let last := (c.head?.map keptBreak).toList
    let (breaks, c) := emptyLines indent (c.rest.length + 1) c.next
    if c.isIndented indent then
      let between := joint (isFolded && startsWithText && !c.meets isBlank) last breaks
      blockLines isFolded indent fuel ⟨between :: line :: text.pieces, [], []⟩ c
    else (⟨line :: text.pieces, last, breaks⟩, c)

/-- The scalar whose header starts behind the first character, when the block collection around it
is indented by one column less than `least`. -/
def blockScalar (isFolded : Bool) (least : Nat) (c : Cursor) : Except Fault (String × Cursor) := do
  let (header, c) ← BlockHeader.ofCursor c.place c.next
  let least := max least 1
  let (indent, breaks, c) := match header.indent? with
    | some width =>
      let (breaks, c) := emptyLines (least + width - 1) (c.rest.length + 1) c
      (least + width - 1, breaks, c)
    | none =>
      let (spaces, c) := c.run isGap
      (max least (widestBlanks spaces), (spaces.filter isBreak).map keptBreak, c)
  let (text, c) := if c.isIndented indent then
      blockLines isFolded indent c.rest.length ⟨[breaks], [], []⟩ c
    else (⟨[], [], breaks⟩, c)
  let tail := match header.chomping with
    | .strip => []
    | .clip => text.last
    | .keep => text.last ++ text.breaks
  return (.ofList ((tail :: text.pieces).reverse.flatten), c)

end Schemata.Yaml
