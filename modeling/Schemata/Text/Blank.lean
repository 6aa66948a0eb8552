import Schemata.Text.CodeSet

/-! The blank characters: the white space of Unicode and the four ASCII information separators.
`strip` removes them from both ends of a text. -/

namespace Schemata.Text

/-- White space together with the separators U+001C to U+001F. -/
def blanks : CodeSet := [
  (9, 13), (28, 32), (133, 133), (160, 160), (5760, 5760), (8192, 8202), (8232, 8233),
  (8239, 8239), (8287, 8287), (12288, 12288)]

def isBlank (c : Char) : Bool := blanks.has c

/-- The characters without the blanks at both ends. -/
def stripChars (cs : List Char) : List Char :=
  ((cs.dropWhile isBlank).reverse.dropWhile isBlank).reverse

/-- A text without the blanks at both ends. -/
def strip (s : String) : String := .ofList (stripChars s.toList)

end Schemata.Text
