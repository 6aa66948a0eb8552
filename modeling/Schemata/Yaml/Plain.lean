import Schemata.Yaml.Place

/-! Plain scalars: text without quotes. It may go on over several lines, which are joined, as long
as they are indented far enough. -/

namespace Schemata.Yaml

/-- Commas, brackets and braces part the values of flow collections. -/
def isFlowSign (c : Char) : Bool :=
  c == ',' || c == '[' || c == ']' || c == '{' || c == '}'

/-- Whether a plain scalar ends in front of a text: at a space, at a colon with a space behind it,
and in a flow collection at its signs and at a question mark. -/
def plainEnds (inFlow : Bool) : List Char → Bool
  | [] => true
  | ':' :: rest => rest.head?.all fun c => isSpace c || (inFlow && isFlowSign c)
  | c :: _ => isSpace c || (inFlow && (c == '?' || isFlowSign c))

/-- The characters of a text up to where a plain scalar ends. -/
def plainPiece (inFlow : Bool) : List Char → List Char
  | [] => []
  | c :: rest => if plainEnds inFlow (c :: rest) then [] else c :: plainPiece inFlow rest

/-- What stands between two pieces of a plain scalar, and whether a line ends in it. -/
structure Gap where
  text : List Char
  crosses : Bool
  after : Cursor
  deriving DecidableEq, Repr

/-- Takes blanks and line breaks away. Where the document ends nothing is left to join. -/
def Gap.ofCursor (c : Cursor) : Gap :=
  let (spaces, after) := c.run isGap
  let breaks := (spaces.filter isBreak).map keptBreak
  if breaks.isEmpty then ⟨spaces, false, after⟩
  else if spaces.getLast?.any isBreak && after.atSeparator then ⟨[], true, after⟩
  else ⟨folded breaks, true, after⟩

/-- A plain scalar, the place where its text ends, whether a line ends between that place and the
next text, and that text. -/
structure Plain where
  text : String
  stop : Place
  crosses : Bool
  after : Cursor
  deriving DecidableEq, Repr

/-- Goes on with a plain scalar, its pieces so far in reverse. In block collections a further line
has to be indented by at least so many columns. The fuel bounds the number of pieces. -/
def plainFrom (inFlow : Bool) (least : Nat) (pieces : List (List Char)) (fuel : Nat) (c : Cursor) :
    Plain :=
  let piece := plainPiece inFlow c.rest
  let stop := c.skip piece.length
  let gap := Gap.ofCursor stop
  let ended := gap.text.isEmpty || gap.after.head? == some '#' || plainEnds inFlow gap.after.rest
    || (!inFlow && gap.after.place.column < least)
  match ended, fuel with
  | false, fuel + 1 => plainFrom inFlow least (gap.text :: piece :: pieces) fuel gap.after
  | _, _ => ⟨.ofList (piece :: pieces).reverse.flatten, stop.place, gap.crosses, gap.after⟩

/-- The plain scalar at the start of a text. -/
def Plain.ofCursor (inFlow : Bool) (least : Nat) (c : Cursor) : Plain :=
  plainFrom inFlow least [] c.rest.length c

end Schemata.Yaml
