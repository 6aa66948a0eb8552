import Schemata.Json.Basic
import Schemata.Decimal.Layout
import Schemata.Text.Printable

/-! How data values appear inside messages. A text by itself appears as it is; inside an array or an
object, or where a message shows values exactly, it appears in quotes. -/

namespace Schemata.Json

/-- The name of a value's kind. -/
def kindName : Json → String
  | .null => "NoneType"
  | .bool _ => "bool"
  | .int _ => "int"
  | .double _ => "float"
  | .str _ => "str"
  | .arr _ => "list"
  | .obj _ | .mixed _ => "dict"
  | .foreign kind .. => kind

private def hexOfWidth (width n : Nat) : List Char :=
  let digits := Nat.toDigits 16 n
  List.replicate (width - digits.length) '0' ++ digits

/-- A character inside quotes: the quote and the backslash are escaped, and so is everything that
does not show, with two, four or eight hexadecimal digits. -/
def shownChar (quote c : Char) : List Char :=
  if c = quote ∨ c = '\\' then ['\\', c]
  else if c = '\n' then ['\\', 'n']
  else if c = '\r' then ['\\', 'r']
  else if c = '\t' then ['\\', 't']
  else if Text.isPrintable c then [c]
  else if c.toNat < 0x100 then '\\' :: 'x' :: hexOfWidth 2 c.toNat
  else if c.toNat < 0x10000 then '\\' :: 'u' :: hexOfWidth 4 c.toNat
  else '\\' :: 'U' :: hexOfWidth 8 c.toNat

/-- A text in single quotes, or in double quotes when it holds single ones and no double ones. -/
def shownText (s : String) : String :=
  let cs := s.toList
  let quote := if cs.contains '\'' && !cs.contains '"' then '"' else '\''
  .ofList (quote :: cs.flatMap (shownChar quote) ++ [quote])

mutual

/-- A value shown exactly. -/
def shown : Json → String
  | .null => "None"
  | .bool b => if b then "True" else "False"
  | .int n => toString n
  | .double x => x.toText
  | .str s => shownText s
  | .arr items => "[" ++ ", ".intercalate (shownItems items) ++ "]"
  | .obj members => "\x7b" ++ ", ".intercalate (shownMembers members) ++ "\x7d"
  | .mixed entries => "\x7b" ++ ", ".intercalate (shownEntries entries) ++ "\x7d"
  | .foreign _ shown _ => shown

def shownItems : List Json → List String
  | [] => []
  | item :: rest => shown item :: shownItems rest

def shownMembers : List (String × Json) → List String
  | [] => []
  | (name, value) :: rest => (shownText name ++ ": " ++ shown value) :: shownMembers rest

def shownEntries : List (Json × Json) → List String
  | [] => []
  | (name, value) :: rest => (shown name ++ ": " ++ shown value) :: shownEntries rest

end

/-- A value as part of a sentence. -/
def spoken : Json → String
  | .str s => s
  | value => value.shown

end Schemata.Json
