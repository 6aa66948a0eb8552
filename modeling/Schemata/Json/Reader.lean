import Schemata.Decimal.Numeral
import Schemata.Json.Basic

/-! Reading data values from text. A fault names its cause and the place where reading stopped;
places are counted in characters from the start, and lines end at line feeds. -/

namespace Schemata.Json

/-- Why a text is not a data value. -/
inductive Fault where
  | byteOrderMark
  | value
  | propertyName
  | colon
  | comma
  | extraData
  | unterminated
  | controlCharacter
  | escape
  | unicodeEscape
  | longInteger (digits : Nat)
  deriving DecidableEq, Repr

def Fault.text : Fault → String
  | .byteOrderMark => "Unexpected UTF-8 BOM (decode using utf-8-sig)"
  | .value => "Expecting value"
  | .propertyName => "Expecting property name enclosed in double quotes"
  | .colon => "Expecting ':' delimiter"
  | .comma => "Expecting ',' delimiter"
  | .extraData => "Extra data"
  | .unterminated => "Unterminated string starting at"
  | .controlCharacter => "Invalid control character at"
  | .escape => "Invalid \\escape"
  | .unicodeEscape => "Invalid \\uXXXX escape"
  | .longInteger digits => Decimal.longIntegerText (some digits)

/-- A fault together with the count of characters that were still ahead. -/
structure Stop where
  fault : Fault
  ahead : Nat
  deriving DecidableEq, Repr

private def stop {α : Type} (fault : Fault) (ahead : List Char) : Except Stop α :=
  .error ⟨fault, ahead.length⟩

/-- Space, tab, line feed and carriage return separate tokens. -/
def isSeparator (c : Char) : Bool := c == ' ' || c == '\t' || c == '\n' || c == '\r'

def skipSeparators (cs : List Char) : List Char := cs.dropWhile isSeparator

/-- Four hexadecimal digits that do not end the text. -/
private def hexCode? (cs : List Char) : Option (Nat × List Char) :=
  match cs.drop 4 with
  | [] => none
  | rest => (Decimal.natIn? 16 (cs.take 4)).map fun code => (code, rest)

private def isHighSurrogate (code : Nat) : Bool := 0xD800 ≤ code && code < 0xDC00
private def isLowSurrogate (code : Nat) : Bool := 0xDC00 ≤ code && code < 0xE000

/-- A code point given by one escape, or by two that form a surrogate pair; the text starts at the
letter of the first escape. A surrogate without its partner reads as the replacement character. -/
private def readUnicode (cs : List Char) : Except Stop (Char × List Char) :=
  match hexCode? (cs.drop 1) with
  | none => stop .unicodeEscape cs
  | some (code, rest) =>
    if isHighSurrogate code then
      match rest with
      | '\\' :: 'u' :: more =>
        if more.length < 5 then .ok ('\uFFFD', rest)
        else match hexCode? more with
          | none => stop .unicodeEscape ('u' :: more)
          | some (low, after) =>
            if isLowSurrogate low then
              .ok (Char.ofNat (0x10000 + (code - 0xD800) * 0x400 + (low - 0xDC00)), after)
            else .ok ('\uFFFD', rest)
      | _ => .ok ('\uFFFD', rest)
    else if isLowSurrogate code then .ok ('\uFFFD', rest)
    else .ok (Char.ofNat code, rest)

private def shortEscape? : Char → Option Char
  | '"' => some '"'
  | '\\' => some '\\'
  | '/' => some '/'
  | 'b' => some '\x08'
  | 'f' => some '\x0C'
  | 'n' => some '\n'
  | 'r' => some '\r'
  | 't' => some '\t'
  | _ => none

/-- The characters of a string up to its closing quote. `opened` is the text from the opening quote
on, where an unterminated string is reported. -/
private def readChars (opened : List Char) : Nat → List Char → List Char →
    Except Stop (String × List Char)
  | 0, _, _ => stop .unterminated opened
  | fuel + 1, read, cs =>
    match cs with
    | [] => stop .unterminated opened
    | '"' :: rest => .ok (.ofList read.reverse, rest)
    | '\\' :: [] => stop .unterminated opened
    | '\\' :: 'u' :: rest => do
      let (c, after) ← readUnicode ('u' :: rest)
      readChars opened fuel (c :: read) after
    | '\\' :: letter :: rest =>
      match shortEscape? letter with
      | some c => readChars opened fuel (c :: read) rest
      | none => stop .escape cs
    | c :: rest =>
      if c.toNat < 32 then stop .controlCharacter cs else readChars opened fuel (c :: read) rest

/-- A string, from its opening quote on. -/
private def readString (cs : List Char) : Except Stop (String × List Char) :=
  readChars cs (cs.length + 1) [] (cs.drop 1)

private def isDigit (c : Char) : Bool := '0' ≤ c && c ≤ '9'

/-- The digits of a fraction, when a point is followed by at least one. -/
private def splitFraction : List Char → Option (List Char) × List Char
  | '.' :: rest =>
    let digits := rest.takeWhile isDigit
    if digits.isEmpty then (none, '.' :: rest) else (some digits, rest.dropWhile isDigit)
  | cs => (none, cs)

/-- The value of an exponent, when its letter and sign are followed by at least one digit. -/
private def splitExponent (cs : List Char) : Option Int × List Char :=
  let digitsOf (negative : Bool) (rest : List Char) : Option Int × List Char :=
    let digits := rest.takeWhile isDigit
    if digits.isEmpty then (none, cs)
    else
      let n : Int := Decimal.natOfDigits digits
      (some (if negative then -n else n), rest.dropWhile isDigit)
  match cs with
  | letter :: rest =>
    if letter == 'e' || letter == 'E' then
      match rest with
      | '-' :: more => digitsOf true more
      | '+' :: more => digitsOf false more
      | _ => digitsOf false rest
    else (none, cs)
  | [] => (none, cs)

/-- A number without its sign. A leading zero stands alone. -/
private def readMagnitude (negative : Bool) (cs : List Char) : Except Stop (Json × List Char) :=
  match cs with
  | [] => stop .value cs
  | first :: rest =>
    if !isDigit first then stop .value cs
    else
      let (whole, rest) :=
        if first == '0' then ([first], rest) else (cs.takeWhile isDigit, cs.dropWhile isDigit)
      let (fraction?, rest) := splitFraction rest
      let (exponent?, rest) := splitExponent rest
      match fraction?, exponent? with
      | none, none =>
        let n : Int := Decimal.natOfDigits whole
        if Decimal.digitLimit < whole.length then stop (.longInteger whole.length) cs
        else .ok (.int (if negative then -n else n), rest)
      | _, _ =>
        let fraction := fraction?.getD []
        let x := Binary64.ofScientific (Decimal.natOfDigits (whole ++ fraction))
          (exponent?.getD 0 - fraction.length)
        .ok (.double (if negative then x.negate else x), rest)

private def words : List (List Char × Json) := [
  ("null".toList, .null), ("true".toList, .bool true), ("false".toList, .bool false),
  ("NaN".toList, .double .notANumber), ("Infinity".toList, .double .infinity),
  ("-Infinity".toList, .double Binary64.infinity.negate)]

/-- A word or a number. -/
private def readScalar (cs : List Char) : Except Stop (Json × List Char) :=
  match words.find? fun word => word.1.isPrefixOf cs with
  | some (word, value) => .ok (value, cs.drop word.length)
  | none => match cs with
    | '-' :: rest => match readMagnitude true rest with
      | .error ⟨.value, _⟩ => stop .value cs
      | result => result
    | _ => readMagnitude false cs

mutual

/-- One value. Every call takes one unit of fuel; a text has fewer calls than twice its length. -/
private def readValue : Nat → List Char → Except Stop (Json × List Char)
  | 0, cs => stop .value cs
  | fuel + 1, cs =>
    match cs with
    | '"' :: _ => do
      let (s, rest) ← readString cs
      .ok (.str s, rest)
    | '{' :: rest =>
      match skipSeparators rest with
      | '}' :: after => .ok (.obj [], after)
      | inside => readMembers fuel [] inside
    | '[' :: rest =>
      match skipSeparators rest with
      | ']' :: after => .ok (.arr [], after)
      | inside => readItems fuel [] inside
    | _ => readScalar cs

/-- The items of an array from the next one on, those before it in reverse. -/
private def readItems : Nat → List Json → List Char → Except Stop (Json × List Char)
  | 0, _, cs => stop .value cs
  | fuel + 1, items, cs => do
    let (item, rest) ← readValue fuel cs
    match skipSeparators rest with
    | ']' :: after => .ok (.arr (item :: items).reverse, after)
    | ',' :: more => readItems fuel (item :: items) (skipSeparators more)
    | other => stop .comma other

/-- The members of an object from the next one on. A repeated name keeps its first place and takes
the last value. -/
private def readMembers : Nat → Members → List Char → Except Stop (Json × List Char)
  | 0, _, cs => stop .propertyName cs
  | fuel + 1, members, cs =>
    match cs with
    | '"' :: _ => do
      let (name, rest) ← readString cs
      match skipSeparators rest with
      | ':' :: more =>
        let (value, rest) ← readValue fuel (skipSeparators more)
        let members := members.put name value
        match skipSeparators rest with
        | '}' :: after => .ok (.obj members, after)
        | ',' :: more => readMembers fuel members (skipSeparators more)
        | other => stop .comma other
      | other => stop .colon other
    | _ => stop .propertyName cs

end

/-- Reads a whole text as one value. -/
def read (cs : List Char) : Except Stop Json :=
  if cs.head? == some '\uFEFF' then stop .byteOrderMark cs
  else do
    let (value, rest) ← readValue (2 * cs.length + 2) (skipSeparators cs)
    match skipSeparators rest with
    | [] => .ok value
    | extra => stop .extraData extra

/-- A fault with its line, its column and its place, lines and columns counted from one. A long
integer has no place. -/
def Stop.message (s : Stop) (text : List Char) : String :=
  let before := text.take (text.length - s.ahead)
  let line := before.count '\n' + 1
  let column := (before.reverse.takeWhile (· != '\n')).length + 1
  match s.fault with
  | .longInteger _ => s.fault.text
  | fault => s!"{fault.text}: line {line} column {column} (char {before.length})"

/-- Reads a text, or says what is wrong with it. -/
def ofText (text : String) : Except String Json :=
  match read text.toList with
  | .ok value => .ok value
  | .error s => .error (s.message text.toList)

end Schemata.Json
