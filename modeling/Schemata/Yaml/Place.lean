/-! Places in a text. Lines end at line breaks of four kinds; carriage returns are no part of the
texts read here. -/

namespace Schemata.Yaml

/-- Line feed, next line, line separator and paragraph separator end a line. -/
def isBreak (c : Char) : Bool := c == '\n' || c == '\u0085' || c == '\u2028' || c == '\u2029'

/-- A blank or a tab. -/
def isBlank (c : Char) : Bool := c == ' ' || c == '\t'

def isSpace (c : Char) : Bool := isBlank c || isBreak c

/-- A blank or a line break, but no tab. -/
def isGap (c : Char) : Bool := c == ' ' || isBreak c

/-- A place, all of it counted from zero: the characters before it, the lines before its own, and
the columns before it on its line. -/
structure Place where
  index : Nat
  line : Nat
  column : Nat
  deriving DecidableEq, Repr

namespace Place

def start : Place := ⟨0, 0, 0⟩

/-- The place behind a character. A byte order mark takes up no column. -/
def past (p : Place) (c : Char) : Place :=
  if isBreak c then ⟨p.index + 1, p.line + 1, 0⟩
  else ⟨p.index + 1, p.line, if c = '\uFEFF' then p.column else p.column + 1⟩

/-- How many characters of a line are shown on either side of a place. -/
def sight : Nat := 36

/-- How many are left of a side that has more than that. -/
def clipped : Nat := 32

/-- The line around a place, and a caret below it. -/
def snippet (p : Place) (text : List Char) : String :=
  let inLine (c : Char) : Bool := !isBreak c
  let before := ((text.take p.index).reverse.takeWhile inLine).reverse
  let after := (text.drop p.index).takeWhile inLine
  let left := if sight < before.length then " ... ".toList ++ before.drop (before.length - clipped)
    else before
  let right := if sight < after.length then after.take clipped ++ " ... ".toList else after
  .ofList (List.replicate 4 ' ' ++ left ++ right ++ ['\n'] ++ List.replicate (4 + left.length) ' '
    ++ ['^'])

/-- How a message points at a place, line and column counted from one. -/
def shown (p : Place) (text : List Char) : String :=
  s!"  in \"<unicode string>\", line {p.line + 1}, column {p.column + 1}:\n" ++ p.snippet text

end Place

/-- A text from some place on. -/
structure Cursor where
  place : Place
  rest : List Char
  deriving DecidableEq, Repr

namespace Cursor

def ofText (text : List Char) : Cursor := ⟨.start, text⟩

def head? (c : Cursor) : Option Char := c.rest.head?

/-- Whether the text goes on with a character of a kind. -/
def meets (kind : Char → Bool) (c : Cursor) : Bool := c.rest.head?.any kind

/-- Whether the text ends or goes on with a character of a kind. -/
def endsOrMeets (kind : Char → Bool) (c : Cursor) : Bool := c.rest.head?.all kind

/-- Goes past one character, if there is one. -/
def next (c : Cursor) : Cursor :=
  match c.rest with
  | [] => c
  | first :: rest => ⟨c.place.past first, rest⟩

/-- Goes past so many characters. -/
def skip : Nat → Cursor → Cursor
  | 0, c => c
  | n + 1, c => skip n c.next

/-- Goes past all characters of a kind. -/
def skipWhile (kind : Char → Bool) (c : Cursor) : Cursor :=
  c.skip (c.rest.takeWhile kind).length

/-- The characters of a kind that come next, and what is behind them. -/
def run (kind : Char → Bool) (c : Cursor) : List Char × Cursor :=
  (c.rest.takeWhile kind, c.skipWhile kind)

/-- Whether three hyphens or three points stand here by themselves: they part documents. -/
def parts (mark : Char) (c : Cursor) : Bool :=
  match c.rest with
  | a :: b :: d :: rest => a == mark && b == mark && d == mark && rest.head?.all isSpace
  | _ => false

/-- Whether one document ends here or another starts. -/
def atSeparator (c : Cursor) : Bool := c.parts '-' || c.parts '.'

/-- Goes past a comment. -/
def skipComment (c : Cursor) : Cursor :=
  if c.head? = some '#' then c.skipWhile fun ch => !isBreak ch else c

end Cursor

/-- A line break as scalars keep it: a next line counts as a line feed. -/
def keptBreak (c : Char) : Char := if c = '\u0085' then '\n' else c

/-- What the line breaks between two parts of a scalar stand for: a single line feed for a blank,
and of several breaks the first one is dropped if it is a line feed. -/
def folded : List Char → List Char
  | [] => []
  | '\n' :: [] => [' ']
  | '\n' :: more => more
  | breaks => breaks

end Schemata.Yaml
