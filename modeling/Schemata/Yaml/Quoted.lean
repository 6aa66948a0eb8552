import Schemata.Decimal.Numeral
import Schemata.Yaml.Token

/-! Scalars in quotes. A line break counts as a blank, and several of them as one less. In single
quotes a quote is written twice; in double quotes a backslash gives the next characters a meaning of
their own. -/

namespace Schemata.Yaml

/-- The character that a letter behind a backslash stands for. -/
def escaped? : Char → Option Char
  | '0' => some '\x00'
  | 'a' => some '\x07'
  | 'b' => some '\x08'
  | 't' | '\t' => some '\t'
  | 'n' => some '\n'
  | 'v' => some '\x0B'
  | 'f' => some '\x0C'
  | 'r' => some '\r'
  | 'e' => some '\x1B'
  | ' ' => some ' '
  | '"' => some '"'
  | '/' => some '/'
  | '\\' => some '\\'
  | 'N' => some '\u0085'
  | '_' => some '\u00A0'
  | 'L' => some '\u2028'
  | 'P' => some '\u2029'
  | _ => none

/-- How many hexadecimal digits follow a letter behind a backslash. -/
def codeLength? : Char → Option Nat
  | 'x' => some 2
  | 'u' => some 4
  | 'U' => some 8
  | _ => none

/-- The number that so many hexadecimal digits write, or what stands there instead of a digit. -/
def hexCode (length : Nat) (cs : List Char) : Except (Option Char) Nat :=
  let digits := cs.take length
  match digits.find? fun d => (Decimal.digitIn? 16 d).isNone, digits.length == length with
  | none, true => .ok ((Decimal.natIn? 16 digits).getD 0)
  | found?, _ => .error found?

/-- Characters from their codes. Two codes of a surrogate pair are one character, and one without
its partner is the replacement character. -/
def charsOfCodes : List Nat → List Char
  | [] => []
  | high :: low :: rest =>
    if 0xD800 ≤ high ∧ high < 0xDC00 ∧ 0xDC00 ≤ low ∧ low < 0xE000 then
      Char.ofNat (0x10000 + (high - 0xD800) * 0x400 + (low - 0xDC00)) :: charsOfCodes rest
    else single high :: charsOfCodes (low :: rest)
  | [code] => [single code]
where
  single (code : Nat) : Char :=
    if 0xD800 ≤ code ∧ code < 0xE000 then '\uFFFD' else Char.ofNat code

/-- The kinds of quotes. -/
inductive Quote where
  | single | double
  deriving DecidableEq, Repr

def Quote.mark : Quote → Char
  | single => '\''
  | double => '"'

private def quotedFault (since : Place) (cause : Cause) (place : Place) : Fault :=
  .during (.scanning "a quoted scalar") since cause place

private def escapeFault (since : Place) (cause : Cause) (place : Place) : Fault :=
  .during (.scanning "a double-quoted scalar") since cause place

/-- Takes blanks and line breaks away and gives the breaks; documents must not be parted here. -/
def quotedBreaks (since : Place) (before : Bool) (c : Cursor) :
    Except Fault (List Char × Cursor) :=
  let (spaces, after) := c.run isSpace
  let atLineStart := match spaces.getLast? with
    | some last => isBreak last
    | none => before
  if atLineStart && after.atSeparator then .error (quotedFault since .separator after.place)
  else .ok ((spaces.filter isBreak).map keptBreak, after)

/-- Blanks and line breaks inside quotes, folded. -/
def quotedGap (since : Place) (c : Cursor) : Except Fault (List Char × Cursor) := do
  match ← quotedBreaks since false c with
  | ([], after) => return (c.rest.takeWhile isSpace, after)
  | (breaks, after) => return (folded breaks, after)

/-- What a backslash and the characters behind it stand for, as codes; the text starts behind the
backslash. -/
def escape (since : Place) (c : Cursor) : Except Fault (List Nat × Cursor) :=
  match c.rest with
  | [] => .error (escapeFault since (.unknownEscape none) c.place)
  | letter :: rest =>
    match escaped? letter, codeLength? letter with
    | some char, _ => .ok ([char.toNat], c.next)
    | none, some length =>
      match hexCode length rest with
      | .ok code =>
        if 0x10FFFF < code then .error (.value "chr() arg not in range(0x110000)")
        else .ok ([code], c.skip (length + 1))
      | .error found? =>
        let wanted := s!"escape sequence of {length} hexadecimal numbers"
        .error (escapeFault since (.expected wanted found?) c.next.place)
    | none, none =>
      if isBreak letter then do
        let (breaks, after) ← quotedBreaks since true c.next
        return (breaks.map Char.toNat, after)
      else .error (escapeFault since (.unknownEscape (some letter)) c.place)

/-- Goes on with a scalar in quotes, the codes of its characters so far in reverse. -/
def quotedFrom (quote : Quote) (since : Place) :
    Nat → List Nat → Cursor → Except Fault (String × Cursor)
  | 0, _, c => .error (quotedFault since .textEnd c.place)
  | fuel + 1, read, c =>
    match c.rest with
    | [] => .error (quotedFault since .textEnd c.place)
    | char :: rest =>
      if isSpace char then do
        let (text, after) ← quotedGap since c
        quotedFrom quote since fuel (text.reverse.map Char.toNat ++ read) after
      else if char = quote.mark then
        if quote = .single && rest.head? == some '\'' then
          quotedFrom quote since fuel (char.toNat :: read) (c.skip 2)
        else .ok (.ofList (charsOfCodes read.reverse), c.next)
      else if quote = .double ∧ char = '\\' then do
        let (codes, after) ← escape since c.next
        quotedFrom quote since fuel (codes.reverse ++ read) after
      else quotedFrom quote since fuel (char.toNat :: read) c.next

/-- The scalar in quotes at the start of a text, and what is behind it. -/
def quotedScalar (quote : Quote) (c : Cursor) : Except Fault (String × Cursor) :=
  quotedFrom quote c.place c.rest.length [] c.next

end Schemata.Yaml
