import Schemata.Text.LetterCase
import Schemata.Text.Search

/-! Paths of files in their usual written form. -/

namespace Schemata.Text

/-- A path without empty and `.` parts. Two slashes in front are kept, more count as one. -/
def normalPath (path : String) : String :=
  let cs := path.toList
  let slashes := (cs.takeWhile (· == '/')).length
  let root := if slashes = 0 then "" else if slashes = 2 then "//" else "/"
  let parts := (pieces '/' cs).filter fun part => !part.isEmpty && part != ['.']
  let normal := root ++ "/".intercalate (parts.map String.ofList)
  if normal = "" then "." else normal

/-- The ending of a file's name in small letters, with its point. A point at either end of the name
starts no ending. -/
def pathEnding (path : String) : String :=
  let name := (normalPath path).toList.reverse.takeWhile (· != '/')
  let ending := name.takeWhile (· != '.')
  if ending.isEmpty || name.length ≤ ending.length + 1 then ""
  else lower (.ofList ('.' :: ending.reverse))

end Schemata.Text
