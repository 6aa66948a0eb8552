import Schemata.Json.Basic

/-! How deep data values are nested. Values that a schema carries along can be written out only up
to a limit. -/

namespace Schemata.Json

mutual

/-- The number of values on the longest way into a value, itself among them. -/
def height : Json → Nat
  | .arr items => heightOfItems items + 1
  | .obj members => heightOfMembers members + 1
  | .mixed entries => heightOfEntries entries + 1
  | _ => 1

def heightOfItems : List Json → Nat
  | [] => 0
  | item :: rest => max item.height (heightOfItems rest)

def heightOfMembers : List (String × Json) → Nat
  | [] => 0
  | (_, value) :: rest => max value.height (heightOfMembers rest)

def heightOfEntries : List (Json × Json) → Nat
  | [] => 0
  | (_, value) :: rest => max value.height (heightOfEntries rest)

end

/-- The greatest height of a value that can be written out. -/
def heightLimit : Nat := 255

/-- What is said of a value of a greater height. -/
def heightText : String := "Maximum serialization depth exceeded"

def isWritable (value : Json) : Bool := value.height ≤ heightLimit

end Schemata.Json
