import Schemata.Json.Basic
import Schemata.Text.Search

/-! What may be logged. Values under keys that look like credentials or addresses with credentials
are replaced at every depth, and long texts are cut. -/

namespace Schemata.Logging

/-- A character with its case taken away, as far as ASCII letters go; four other characters count as
forms of ASCII letters. -/
def foldCase (c : Char) : Char :=
  match c with
  | '\u017F' => 's'
  | '\u212A' => 'k'
  | '\u0130' | '\u0131' => 'i'
  | _ => c.toLower

/-- The words that make a key sensitive wherever they stand in it. -/
def sensitiveWords : List (List Char) :=
  ["password".toList, "token".toList, "api_key".toList, "secret".toList]

/-- A key for the address of a database, with any number of underscores and perhaps a line feed
after it. -/
def isAddressKey (key : List Char) : Bool :=
  let key := if "sf_".toList.isPrefixOf key then key.drop 3 else key
  let rest := key.drop "database".length
  "database".toList.isPrefixOf key && rest.head? == some '_'
    && ["uri".toList, "url".toList, "uri\n".toList, "url\n".toList].contains
      (rest.dropWhile (· == '_'))

def isSensitive (key : String) : Bool :=
  let folded := key.toList.map foldCase
  sensitiveWords.any (Text.occursIn · folded) || isAddressKey folded

def redacted : Json := .str "[REDACTED]"

mutual

/-- Replaces what stands under sensitive keys, in objects at every depth. -/
def redact : Json → Json
  | .obj members => .obj (redactMembers members)
  | .mixed entries => .mixed (redactEntries entries)
  | .arr items => .arr (redactItems items)
  | value => value

def redactItems : List Json → List Json
  | [] => []
  | item :: rest => redact item :: redactItems rest

def redactMembers : List (String × Json) → List (String × Json)
  | [] => []
  | (key, value) :: rest =>
    (key, if isSensitive key then redacted else redact value) :: redactMembers rest

def redactEntries : List (Json × Json) → List (Json × Json)
  | [] => []
  | (.str key, value) :: rest =>
    (.str key, if isSensitive key then redacted else redact value) :: redactEntries rest
  | (key, value) :: rest => (key, redact value) :: redactEntries rest

end

/-- Cuts a text that is longer than a positive limit. -/
def truncate (limit : Int) : Json → Json
  | .str s =>
    if 0 < limit ∧ limit < s.length then
      .str (.ofList (s.toList.take limit.toNat) ++ "...[truncated]")
    else .str s
  | value => value

/-- An event as it is logged: redacted, and its own texts cut. -/
def loggedEvent (limit : Int) (event : Members) : Members :=
  (redactMembers event).map fun (key, value) => (key, truncate limit value)

end Schemata.Logging
