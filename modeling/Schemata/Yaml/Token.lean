import Schemata.Json.Display
import Schemata.Yaml.Place

/-! The tokens of a text, and what can be wrong with one. Block collections have tokens of their
own, which stand where the indentation changes. -/

namespace Schemata.Yaml

/-- A line with instructions in front of a document. -/
inductive Directive where
  | version (major : Nat)
  | handle (name expansion : String)
  | other
  deriving DecidableEq, Repr

/-- What a token says. -/
inductive Sign where
  | directive (d : Directive)
  | documentStart
  | documentEnd
  | streamEnd
  | blockSequence
  | blockMapping
  | blockEnd
  | flowSequence
  | flowSequenceEnd
  | flowMapping
  | flowMappingEnd
  | key
  | value
  | blockEntry
  | flowEntry
  | aliasOf (name : String)
  | anchor (name : String)
  | tag (handle? : Option String) (suffix : String)
  | scalar (text : String) (isPlain : Bool)
  deriving DecidableEq, Repr

/-- How messages name a token. -/
def Sign.word : Sign → String
  | directive _ => "<directive>"
  | documentStart => "<document start>"
  | documentEnd => "<document end>"
  | streamEnd => "<stream end>"
  | blockSequence => "<block sequence start>"
  | blockMapping => "<block mapping start>"
  | blockEnd => "<block end>"
  | flowSequence => "["
  | flowSequenceEnd => "]"
  | flowMapping => "\x7b"
  | flowMappingEnd => "\x7d"
  | key => "?"
  | value => ":"
  | blockEntry => "-"
  | flowEntry => ","
  | aliasOf _ => "<alias>"
  | anchor _ => "<anchor>"
  | tag .. => "<tag>"
  | scalar .. => "<scalar>"

/-- A token with the places where it starts and where it ends. -/
structure Token where
  sign : Sign
  start : Place
  stop : Place
  deriving DecidableEq, Repr

/-- The kinds of nodes in a document. -/
inductive NodeKind where
  | scalar | sequence | mapping
  deriving DecidableEq, Repr

def NodeKind.word : NodeKind → String
  | scalar => "scalar"
  | sequence => "sequence"
  | mapping => "mapping"

/-- What was under way when a fault was met. -/
inductive Activity where
  | scanning (what : String)
  | parsing (what : String)
  | constructing (what : String)
  | anchoring (name : String)
  | document
  deriving DecidableEq, Repr

def Activity.text : Activity → String
  | scanning what => s!"while scanning {what}"
  | parsing what => s!"while parsing {what}"
  | constructing what => s!"while constructing {what}"
  | anchoring name => s!"found duplicate anchor {Json.shownText name}; first occurrence"
  | document => "expected a single document in the stream"

/-- What can be wrong at a place. -/
inductive Cause where
  | noToken (found : Char)
  | noColon
  | misplaced (what : String)
  | expected (what : String) (found? : Option Char)
  | noIndent
  | unknownEscape (found? : Option Char)
  | textEnd
  | separator
  | unexpected (what : String) (found : Sign)
  | unexpectedInFlow (what : String) (found : Sign)
  | repeatedVersion
  | otherVersion
  | repeatedHandle (name : String)
  | unknownHandle (name : String)
  | unknownAlias (name : String)
  | repeatedAnchor
  | anotherDocument
  | unknownTag (name : String)
  | unusableKey
  | wrongKind (wanted : String) (found : NodeKind)
  | severalItems (count : Nat)
  deriving DecidableEq, Repr

/-- A character in quotes; the end of a text shows as a null character. -/
def shownChar (c? : Option Char) : String := Json.shownText (.singleton (c?.getD '\x00'))

def Cause.text : Cause → String
  | noToken found => s!"found character {shownChar (some found)} that cannot start any token"
  | noColon => "could not find expected ':'"
  | misplaced what => s!"{what} are not allowed here"
  | expected what found? => s!"expected {what}, but found {shownChar found?}"
  | noIndent => "expected indentation indicator in the range 1-9, but found 0"
  | unknownEscape found? => s!"found unknown escape character {shownChar found?}"
  | textEnd => "found unexpected end of stream"
  | separator => "found unexpected document separator"
  | unexpected what found => s!"expected {what}, but found {Json.shownText found.word}"
  | unexpectedInFlow what found => s!"expected {what}, but got {Json.shownText found.word}"
  | repeatedVersion => "found duplicate YAML directive"
  | otherVersion => "found incompatible YAML document (version 1.* is required)"
  | repeatedHandle name => s!"duplicate tag handle {Json.shownText name}"
  | unknownHandle name => s!"found undefined tag handle {Json.shownText name}"
  | unknownAlias name => s!"found undefined alias {Json.shownText name}"
  | repeatedAnchor => "second occurrence"
  | anotherDocument => "but found another document"
  | unknownTag name => s!"could not determine a constructor for the tag {Json.shownText name}"
  | unusableKey => "found unhashable key"
  | wrongKind wanted found => s!"expected {wanted}, but found {found.word}"
  | severalItems count => s!"expected a single mapping item, but found {count} items"

/-- Why a text cannot be read. -/
inductive Fault where
  /-- A character that no text may hold. -/
  | character (code index : Nat)
  /-- Something wrong at a place, perhaps with what was under way and where that began. -/
  | marked (activity? : Option (Activity × Option Place)) (cause : Cause) (place : Place)
  /-- A scalar that has no value. -/
  | value (message : String)
  deriving DecidableEq, Repr

namespace Fault

def during (activity : Activity) (since : Place) (cause : Cause) (place : Place) : Fault :=
  .marked (some (activity, some since)) cause place

def alone (cause : Cause) (place : Place) : Fault := .marked none cause place

/-- A code with at least four hexadecimal digits. -/
private def codeText (code : Nat) : String :=
  let digits := Nat.toDigits 16 code
  .ofList (List.replicate (4 - digits.length) '0' ++ digits)

/-- The message for a fault in a text. Where something began is left out when the fault is on the
same line and column. -/
def message (text : List Char) : Fault → String
  | character code index =>
    s!"unacceptable character #x{codeText code}: special characters are not allowed\n"
      ++ s!"  in \"<unicode string>\", position {index}"
  | marked activity? cause place =>
    let context := match activity? with
      | none => []
      | some (activity, since?) =>
        let apart := since?.filter fun since =>
          since.line != place.line || since.column != place.column
        activity.text :: apart.toList.map fun since => since.shown text
    "\n".intercalate (context ++ [cause.text, place.shown text])
  | value message => message

end Fault

end Schemata.Yaml
