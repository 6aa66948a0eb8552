import Schemata.Decimal.Numeral
import Schemata.Json.Display
import Schemata.Text.Blank
import Schemata.Text.LetterCase
import Schemata.Text.Search
import Schemata.Time.Iso

/-! What a scalar stands for. A tag says of what kind a node is; for plain text without a tag its
form tells. -/

namespace Schemata.Yaml

/-- The kinds of nodes that a value can be made of, and all other tags. -/
inductive Tag where
  | null | bool | int | float | str | timestamp | binary
  | seq | map | set | omap | pairs
  | merge | value
  | other (name : String)
  deriving DecidableEq, Repr

namespace Tag

/-- The tags with a meaning of their own, each with its word. -/
def standard : List (Tag × String) := [
  (null, "null"), (bool, "bool"), (int, "int"), (float, "float"), (str, "str"),
  (timestamp, "timestamp"), (binary, "binary"), (seq, "seq"), (map, "map"), (set, "set"),
  (omap, "omap"), (pairs, "pairs"), (merge, "merge"), (value, "value")]

/-- What the names of these tags start with. -/
def family : String := "tag:yaml.org,2002:"

def ofName (name : String) : Tag :=
  match standard.find? fun (_, word) => family ++ word == name with
  | some (tag, _) => tag
  | none => other name

def name : Tag → String
  | other name => name
  | tag => family ++ (standard.lookup tag).getD ""

end Tag

def nullWords : List String := ["", "~", "null", "Null", "NULL"]

/-- The words for truth values in small letters. -/
def trueWords : List String := ["yes", "true", "on"]
def falseWords : List String := ["no", "false", "off"]

/-- A word in small letters, with a capital in front, or in capitals. -/
def isCased (word : String) (text : String) : Bool :=
  text == word || text == word.capitalize || text == word.toUpper

private def isRunChar (c : Char) : Bool := Text.isAsciiDigit c || c == '_'

/-- Digits and underscores with a digit in front. -/
def isDigitRun (cs : List Char) : Bool := cs.head?.any Text.isAsciiDigit && cs.all isRunChar

/-- One or two digits below sixty. -/
def isSixtieth : List Char → Bool
  | [c] => Text.isAsciiDigit c
  | [c, d] => '0' ≤ c && c ≤ '5' && Text.isAsciiDigit d
  | _ => false

/-- An integer in base 2, 8, 10, 16 or 60. -/
def isInteger (cs : List Char) : Bool :=
  match (Decimal.splitSign cs).2 with
  | '0' :: 'b' :: c :: rest => (c :: rest).all ['0', '1', '_'].contains
  | '0' :: 'x' :: c :: rest => (c :: rest).all fun d => (Decimal.digitIn? 16 d).isSome || d == '_'
  | '0' :: rest => rest.all fun d => (Decimal.digitIn? 8 d).isSome || d == '_'
  | body => match Text.pieces ':' body with
    | first :: more => isDigitRun first && more.all isSixtieth
    | [] => false

/-- An exponent with its sign, or nothing. -/
def isExponent : List Char → Bool
  | [] => true
  | letter :: sign :: digits => (letter == 'e' || letter == 'E') && (sign == '+' || sign == '-')
    && !digits.isEmpty && digits.all Text.isAsciiDigit
  | _ => false

/-- What follows the point of a number. -/
def isFraction (cs : List Char) : Bool := isExponent (cs.dropWhile isRunChar)

/-- Parts between colons of which the last one has a fraction. -/
def isSixtiethFloat (cs : List Char) : Bool :=
  match (Text.pieces ':' cs).reverse with
  | last :: middle :: more =>
    let whole := last.takeWhile (· != '.')
    let fraction := last.drop whole.length
    isSixtieth whole && fraction.head? == some '.' && (fraction.drop 1).all isRunChar
      && match (middle :: more).reverse with
        | first :: others => isDigitRun first && others.all isSixtieth
        | [] => false
  | _ => false

/-- A number with a point, or a word for one that is not finite. Without digits in front of the
point it has no sign. -/
def isFloat (cs : List Char) : Bool :=
  let body := (Decimal.splitSign cs).2
  let whole := body.takeWhile isRunChar
  let pointed := match whole, body.drop whole.length with
    | [], '.' :: rest => body == cs && isDigitRun (rest.takeWhile isRunChar) && isFraction rest
    | _ :: _, '.' :: rest => isDigitRun whole && isFraction rest
    | _, _ => false
  let word := String.ofList body
  pointed || isSixtiethFloat body || [".inf", ".Inf", ".INF"].contains word
    || (body == cs && [".nan", ".NaN", ".NAN"].contains word)

/-- A date, and perhaps a time of day with the distance from the prime meridian. -/
structure Moment where
  date : Time.Date
  time? : Option (Time.Clock × Option Int)
  deriving DecidableEq, Repr

/-- One or two digits. -/
private def short? (cs : List Char) : Option (Nat × List Char) :=
  let digits := (cs.take 2).takeWhile Text.isAsciiDigit
  if digits.isEmpty then none else some (Decimal.natOfDigits digits, cs.drop digits.length)

private def sign? (sign : Char) (cs : List Char) : Option (List Char) :=
  if cs.head? = some sign then some (cs.drop 1) else none

private def isBlankOrTab (c : Char) : Bool := c == ' ' || c == '\t'

/-- The distance from the prime meridian at the end of a time, behind blanks. -/
private def zone? (cs : List Char) : Option (Option Int) :=
  let seconds (hours minutes : Nat) : Int := (hours * 3600 + minutes * 60 : Nat) * 1000000
  match cs, cs.dropWhile isBlankOrTab with
  | [], _ => some none
  | _, ['Z'] => some (some 0)
  | _, sign :: rest => do
    guard (sign = '+' ∨ sign = '-')
    let (hours, rest) ← short? rest
    let minutes ← match rest with
      | [] => some 0
      | ':' :: rest => (Time.fixed? 2 rest).bind fun (n, after) =>
        if after.isEmpty then some n else none
      | _ => none
    return some (if sign = '-' then -seconds hours minutes else seconds hours minutes)
  | _, [] => none

/-- The time of day behind a date, which is parted from it by a letter or by blanks. -/
private def timeOfDay? (cs : List Char) : Option (Time.Clock × Option Int) := do
  let rest ← match cs with
    | 'T' :: rest | 't' :: rest => some rest
    | c :: rest => if isBlankOrTab c then some (rest.dropWhile isBlankOrTab) else none
    | [] => none
  let (hour, rest) ← short? rest
  let (minute, rest) ← (sign? ':' rest).bind (Time.fixed? 2)
  let (second, rest) ← (sign? ':' rest).bind (Time.fixed? 2)
  let (digits, rest) := match rest with
    | '.' :: more => (more.takeWhile Text.isAsciiDigit, more.dropWhile Text.isAsciiDigit)
    | _ => ([], rest)
  let micro := Decimal.natOfDigits ((digits ++ List.replicate 6 '0').take 6)
  let offset? ← zone? rest
  return (⟨hour, minute, second, micro⟩, offset?)

/-- A date and perhaps a time. -/
def Moment.ofChars? (cs : List Char) : Option Moment := do
  let (year, rest) ← Time.fixed? 4 cs
  let (month, rest) ← (sign? '-' rest).bind short?
  let (day, rest) ← (sign? '-' rest).bind short?
  if rest.isEmpty then return ⟨⟨year, month, day⟩, none⟩
  else return ⟨⟨year, month, day⟩, some (← timeOfDay? rest)⟩

/-- Plain text is a date alone only when month and day have two digits. -/
def isTimestamp (cs : List Char) : Bool :=
  (Moment.ofChars? cs).any fun moment => moment.time?.isSome || cs.length == 10

/-- The tag of plain text that has none. -/
def Tag.ofPlain (text : String) : Tag :=
  let cs := text.toList
  if nullWords.contains text then .null
  else if (trueWords ++ falseWords).any fun word => isCased word text then .bool
  else if isFloat cs then .float
  else if isInteger cs then .int
  else if text = "<<" then .merge
  else if text = "=" then .value
  else if isTimestamp cs then .timestamp
  else .str

/-- A whole number in a base. -/
private def whole (base : Nat) (cs : List Char) : Except String Int :=
  let (negative, digits) := Decimal.splitSign (Text.stripChars cs)
  match Decimal.natIn? base digits with
  | none => .error s!"invalid literal for int() with base {base}: {Json.shownText (.ofList cs)}"
  | some n =>
    if base = 10 ∧ Decimal.digitLimit < digits.length then
      .error (Decimal.longIntegerText (some digits.length))
    else .ok (if negative then -n else n)

/-- The value of an integer; the first characters tell the base, and underscores do not count. -/
def integerValue (text : String) : Except String Int := do
  let (negative, body) := Decimal.splitSign (text.toList.filter (· != '_'))
  let magnitude ← match body with
    | [] => throw "string index out of range"
    | ['0'] => pure 0
    | '0' :: 'b' :: digits => whole 2 digits
    | '0' :: 'x' :: digits => whole 16 digits
    | '0' :: _ => whole 8 body
    | _ =>
      let parts ← (Text.pieces ':' body).mapM (whole 10)
      pure (parts.foldl (fun n part => 60 * n + part) 0)
  return if negative then -magnitude else magnitude

private def real (cs : List Char) : Except String Binary64 :=
  match Decimal.real? (Text.stripChars cs) with
  | some x => .ok x
  | none => .error s!"could not convert string to float: {Json.shownText (.ofList cs)}"

/-- Parts between colons added up from the last one on, each worth sixty times as much as the
next. -/
private def sixtiethSum (parts : List Binary64) : Binary64 :=
  let add (sum : Binary64 × Nat) (part : Binary64) : Binary64 × Nat :=
    (sum.1.plus (part.times (.ofInt sum.2)), sum.2 * 60)
  (parts.reverse.foldl add (.ofInt 0, 1)).1

/-- The value of a number with a point. -/
def floatValue (text : String) : Except String Binary64 := do
  let small := (Text.lower text).toList.filter (· != '_')
  let (negative, body) := Decimal.splitSign small
  let magnitude ←
    if body = ".inf".toList then pure Binary64.infinity
    else if body = ".nan".toList then return .notANumber
    else if body.contains ':' then sixtiethSum <$> (Text.pieces ':' body).mapM real
    else real body
  return if negative then magnitude.negate else magnitude

/-- The value of a date or of a date with a time. -/
def Moment.value (m : Moment) : Except String Json :=
  match m.time? with
  | none => match m.date.check with
    | .ok date => .ok (.foreign "date" date.shown (.str date.text))
    | .error fault => .error fault.message
  | some (clock, offset?) => match Time.Stamp.check ⟨m.date, clock, offset?⟩ with
    | .ok stamp => .ok (.foreign "datetime" stamp.shown (.str stamp.written))
    | .error fault => .error fault.message

/-- The value of a scalar with a tag, for the tags of scalars. -/
def Tag.scalarValue? (tag : Tag) (text : String) : Option (Except String Json) :=
  match tag with
  | null => some (.ok .null)
  | str => some (.ok (.str text))
  | bool =>
    let small := Text.lower text
    if trueWords.contains small then some (.ok (.bool true))
    else if falseWords.contains small then some (.ok (.bool false))
    else some (.error (Json.shownText small))
  | int => some (.int <$> integerValue text)
  | float => some (.double <$> floatValue text)
  | timestamp => match Moment.ofChars? text.toList with
    | some moment => some moment.value
    | none => some (.error "no timestamp")
  | binary => some (.ok (.foreign "bytes" (Json.shownText text) (.str text)))
  | _ => none

end Schemata.Yaml
