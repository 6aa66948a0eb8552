import Schemata.Sql.Quoting
import Schemata.Text.Blank
import Schemata.Text.DecimalDigit
import Schemata.Text.LetterCase

/-! Defaults of columns. Free text is read as one of four kinds and written back from that kind, so
a statement only ever holds a known keyword, a number or a quoted text. -/

namespace Schemata.Sql

/-- The expressions that a default may name. -/
inductive DefaultExpression where
  | now
  | currentTimestamp
  | currentDate
  | generatedUuid
  | null
  deriving DecidableEq, Repr

def DefaultExpression.sql : DefaultExpression → String
  | .now => "NOW()"
  | .currentTimestamp => "CURRENT_TIMESTAMP"
  | .currentDate => "CURRENT_DATE"
  | .generatedUuid => "gen_random_uuid()"
  | .null => "NULL"

/-- The expression that a text in small letters names. -/
def DefaultExpression.ofLower? : String → Option DefaultExpression
  | "now()" => some .now
  | "current_timestamp" => some .currentTimestamp
  | "current_date" => some .currentDate
  | "gen_random_uuid()" => some .generatedUuid
  | "null" => some .null
  | _ => none

/-- A default by kind. -/
inductive DefaultValue where
  | expression (e : DefaultExpression)
  | boolean (value : Bool)
  | number (text : String)
  | string (text : String)
  deriving DecidableEq, Repr

/-- A number: an optional minus, digits, and optionally a point with more digits. -/
def isNumberText (cs : List Char) : Bool :=
  let unsigned := match cs with
    | '-' :: rest => rest
    | _ => cs
  let whole := unsigned.takeWhile Text.isDecimalDigit
  !whole.isEmpty &&
    match unsigned.dropWhile Text.isDecimalDigit with
    | [] => true
    | '.' :: fraction => !fraction.isEmpty && fraction.all Text.isDecimalDigit
    | _ => false

/-- The text between a quote at each end, doubled quotes read as one. -/
def unquoted? (cs : List Char) : Option (List Char) :=
  match cs with
  | '\'' :: rest =>
    if rest.getLast? = some '\'' then some (undoubleQuotes '\'' rest.dropLast) else none
  | _ => none

namespace DefaultValue

/-- Reads a default: a known expression or truth value in any case, a number, and else a text, with
or without quotes around it. Blanks at both ends do not count. -/
def classify (raw : String) : DefaultValue :=
  let text := Text.strip raw
  let small := Text.lower text
  match DefaultExpression.ofLower? small with
  | some e => .expression e
  | none =>
    if small = "true" then .boolean true
    else if small = "false" then .boolean false
    else if isNumberText text.toList then .number text
    else match unquoted? text.toList with
      | some inner => .string (.ofList inner)
      | none => .string text

/-- The name of a default's kind. -/
def kindName : DefaultValue → String
  | .expression _ => "expression"
  | .boolean _ => "boolean"
  | .number _ => "number"
  | .string _ => "string"

/-- What a default holds: a canonical word, a number, or a text without its quotes. -/
def content : DefaultValue → String
  | .expression e => e.sql
  | .boolean value => if value then "TRUE" else "FALSE"
  | .number text => text
  | .string text => text

/-- A default as it stands in a statement: its content, quoted when it is a text. -/
def sql : DefaultValue → String
  | .string text => literal text
  | value => value.content

end DefaultValue

/-- Free text as it stands after `DEFAULT` in a statement. -/
def renderDefault (raw : String) : String := (DefaultValue.classify raw).sql

end Schemata.Sql
