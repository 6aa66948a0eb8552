import Schemata.Json.Basic
import Schemata.Decimal.Layout

/-! Writing data values as text, on one line or with a fixed indentation. -/

namespace Schemata.Json

private def hexDigits (width : Nat) (n : Nat) : List Char :=
  let digits := Nat.toDigits 16 n
  List.replicate (width - digits.length) '0' ++ digits

/-- A character inside quotes: quotes, backslashes and controls are escaped, all else stands. -/
def quotedChar (c : Char) : List Char :=
  match c with
  | '"' => ['\\', '"']
  | '\\' => ['\\', '\\']
  | '\n' => ['\\', 'n']
  | '\r' => ['\\', 'r']
  | '\t' => ['\\', 't']
  | '\x08' => ['\\', 'b']
  | '\x0C' => ['\\', 'f']
  | _ => if c.toNat < 32 then '\\' :: 'u' :: hexDigits 4 c.toNat else [c]

def quoted (s : String) : String := .ofList ('"' :: s.toList.flatMap quotedChar ++ ['"'])

private def doubleText (x : Binary64) : String :=
  match x.value with
  | .undefined => "NaN"
  | .infinite negative => if negative then "-Infinity" else "Infinity"
  | .finite .. => x.toText

/-- Line breaks and blanks around the parts of an array or object. -/
structure Spacing where
  /-- The blanks of one level, or nothing for a text on one line. -/
  indent? : Option Nat
  afterColon : String

/-- Everything on one line without blanks. -/
def Spacing.compact : Spacing := ⟨none, ""⟩

/-- One item or member a line, two blanks for each level. -/
def Spacing.indented : Spacing := ⟨some 2, " "⟩

/-- Starts a line at the given depth. -/
def Spacing.line (spacing : Spacing) (depth : Nat) : String :=
  match spacing.indent? with
  | none => ""
  | some width => .ofList ('\n' :: List.replicate (width * depth) ' ')

mutual

def write (spacing : Spacing) (depth : Nat) : Json → String
  | .null => "null"
  | .bool b => if b then "true" else "false"
  | .int n => toString n
  | .double x => doubleText x
  | .str s => quoted s
  | .arr [] => "[]"
  | .arr items =>
    "[" ++ spacing.line (depth + 1) ++
      (("," ++ spacing.line (depth + 1)).intercalate
        (writeItems spacing (depth + 1) items)) ++ spacing.line depth ++ "]"
  | .obj [] => "\x7b\x7d"
  | .obj members =>
    "\x7b" ++ spacing.line (depth + 1) ++
      (("," ++ spacing.line (depth + 1)).intercalate
        (writeMembers spacing (depth + 1) members)) ++ spacing.line depth ++ "\x7d"
  | .mixed entries =>
    "\x7b" ++ spacing.line (depth + 1) ++
      (("," ++ spacing.line (depth + 1)).intercalate
        (writeEntries spacing (depth + 1) entries)) ++ spacing.line depth ++ "\x7d"
  | .foreign _ shown _ => quoted shown

def writeItems (spacing : Spacing) (depth : Nat) : List Json → List String
  | [] => []
  | item :: rest => write spacing depth item :: writeItems spacing depth rest

def writeMembers (spacing : Spacing) (depth : Nat) : List (String × Json) → List String
  | [] => []
  | (name, value) :: rest =>
    (quoted name ++ ":" ++ spacing.afterColon ++ write spacing depth value) ::
      writeMembers spacing depth rest

/-- A name that is no text is written as its value would be, in quotes. -/
def writeEntries (spacing : Spacing) (depth : Nat) : List (Json × Json) → List String
  | [] => []
  | (name, value) :: rest =>
    let key := match name with
      | .str s => quoted s
      | other => quoted (write spacing depth other)
    (key ++ ":" ++ spacing.afterColon ++ write spacing depth value) ::
      writeEntries spacing depth rest

end

/-- A value on one line. -/
def compact (value : Json) : String := value.write .compact 0

/-- A value over several lines. -/
def indented (value : Json) : String := value.write .indented 0

end Schemata.Json
