import Schemata.Text.CaseContext
import Schemata.Text.CaseTable

/-! Small and capital forms of a text. A capital sigma becomes the final small sigma at the end of
a word: a cased letter stands before it and none after it, marks passed over. -/

namespace Schemata.Text

/-- The small form of a character outside any context. ASCII letters are decided directly. -/
def lowerChar (c : Char) : List Char :=
  if c.toNat < 128 then [c.toLower] else mapCase lowerExpansions lowerRuns c

/-- The capital form of a character. -/
def upperChar (c : Char) : List Char :=
  if c.toNat < 128 then [c.toUpper] else mapCase upperExpansions upperRuns c

/-- The first character that is not passed over is a cased letter. -/
def meetsCased (cs : List Char) : Bool :=
  ((cs.dropWhile caseIgnorable.has).head?.map casedLetters.has).getD false

/-- Lowers the rest of a text, given the characters before it in reverse. -/
def lowerFrom (before : List Char) : List Char → List Char
  | [] => []
  | c :: rest =>
    let small :=
      if c = 'Σ' then [if meetsCased before && !meetsCased rest then 'ς' else 'σ']
      else lowerChar c
    small ++ lowerFrom (c :: before) rest

/-- The small form of a text. -/
def lower (s : String) : String := .ofList (lowerFrom [] s.toList)

/-- The capital form of a text. -/
def upper (s : String) : String := .ofList (s.toList.flatMap upperChar)

end Schemata.Text
