import Schemata.Decimal.Binary64
import Schemata.Keyed

/-! Data values: what is read from a request or a schema file before any shape is asked of it.
Objects keep the order of their members; the first member of a name is the one that counts. Schema
files can also hold dates and the like, and objects whose members do not all have a text for a
name. -/

namespace Schemata

/-- A data value. Integers are unbounded, and a number written with a fraction or an exponent is a
double even when it is whole. -/
inductive Json where
  | null
  | bool (value : Bool)
  | int (value : Int)
  | double (value : Binary64)
  | str (value : String)
  | arr (items : List Json)
  | obj (members : List (String × Json))
  /-- An object with at least one member whose name is no text. -/
  | mixed (entries : List (Json × Json))
  /-- A value of some other kind, as messages show it and as a payload writes it. -/
  | foreign (kind shown : String) (written : Json)
  deriving Repr, Inhabited

/-- The members of an object, in order. -/
abbrev Members := Keyed Json

namespace Json

mutual

private def decideEq : (a b : Json) → Decidable (a = b)
  | .null, .null => isTrue rfl
  | .bool a, .bool b => decidable_of_iff (a = b) (by simp)
  | .int a, .int b => decidable_of_iff (a = b) (by simp)
  | .double a, .double b => decidable_of_iff (a = b) (by simp)
  | .str a, .str b => decidable_of_iff (a = b) (by simp)
  | .arr xs, .arr ys =>
    match decideEqItems xs ys with
    | isTrue h => isTrue (by rw [h])
    | isFalse h => isFalse (by simpa using h)
  | .obj xs, .obj ys =>
    match decideEqMembers xs ys with
    | isTrue h => isTrue (by rw [h])
    | isFalse h => isFalse (by simpa using h)
  | .mixed xs, .mixed ys =>
    match decideEqEntries xs ys with
    | isTrue h => isTrue (by rw [h])
    | isFalse h => isFalse (by simpa using h)
  | .foreign k s v, .foreign l t w =>
    match decEq (k, s) (l, t), decideEq v w with
    | isTrue h, isTrue h' => isTrue (by simpa [h'] using h)
    | isFalse h, _ => isFalse (by simpa using fun k s _ => h (by rw [k, s]))
    | _, isFalse h => isFalse (by simp [h])
  | .null, .bool _ | .null, .int _ | .null, .double _ | .null, .str _ | .null, .arr _
  | .null, .obj _ | .null, .mixed _ | .null, .foreign .. | .bool _, .null | .bool _, .int _
  | .bool _, .double _ | .bool _, .str _ | .bool _, .arr _ | .bool _, .obj _ | .bool _, .mixed _
  | .bool _, .foreign .. | .int _, .null | .int _, .bool _ | .int _, .double _ | .int _, .str _
  | .int _, .arr _ | .int _, .obj _ | .int _, .mixed _ | .int _, .foreign .. | .double _, .null
  | .double _, .bool _ | .double _, .int _ | .double _, .str _ | .double _, .arr _
  | .double _, .obj _ | .double _, .mixed _ | .double _, .foreign .. | .str _, .null
  | .str _, .bool _ | .str _, .int _ | .str _, .double _ | .str _, .arr _ | .str _, .obj _
  | .str _, .mixed _ | .str _, .foreign .. | .arr _, .null | .arr _, .bool _ | .arr _, .int _
  | .arr _, .double _ | .arr _, .str _ | .arr _, .obj _ | .arr _, .mixed _ | .arr _, .foreign ..
  | .obj _, .null | .obj _, .bool _ | .obj _, .int _ | .obj _, .double _ | .obj _, .str _
  | .obj _, .arr _ | .obj _, .mixed _ | .obj _, .foreign .. | .mixed _, .null | .mixed _, .bool _
  | .mixed _, .int _ | .mixed _, .double _ | .mixed _, .str _ | .mixed _, .arr _ | .mixed _, .obj _
  | .mixed _, .foreign .. | .foreign .., .null | .foreign .., .bool _ | .foreign .., .int _
  | .foreign .., .double _ | .foreign .., .str _ | .foreign .., .arr _ | .foreign .., .obj _
  | .foreign .., .mixed _ => isFalse (by simp)

private def decideEqItems : (a b : List Json) → Decidable (a = b)
  | [], [] => isTrue rfl
  | [], _ :: _ | _ :: _, [] => isFalse (by simp)
  | x :: xs, y :: ys =>
    match decideEq x y, decideEqItems xs ys with
    | isTrue h, isTrue h' => isTrue (by rw [h, h'])
    | isFalse h, _ => isFalse (by simp [h])
    | _, isFalse h => isFalse (by simp [h])

private def decideEqMembers : (a b : List (String × Json)) → Decidable (a = b)
  | [], [] => isTrue rfl
  | [], _ :: _ | _ :: _, [] => isFalse (by simp)
  | (k, x) :: xs, (l, y) :: ys =>
    match decEq k l, decideEq x y, decideEqMembers xs ys with
    | isTrue h, isTrue h', isTrue h'' => isTrue (by rw [h, h', h''])
    | isFalse h, _, _ => isFalse (by simp [h])
    | _, isFalse h, _ => isFalse (by simp [h])
    | _, _, isFalse h => isFalse (by simp [h])

private def decideEqEntries : (a b : List (Json × Json)) → Decidable (a = b)
  | [], [] => isTrue rfl
  | [], _ :: _ | _ :: _, [] => isFalse (by simp)
  | (k, x) :: xs, (l, y) :: ys =>
    match decideEq k l, decideEq x y, decideEqEntries xs ys with
    | isTrue h, isTrue h', isTrue h'' => isTrue (by rw [h, h', h''])
    | isFalse h, _, _ => isFalse (by simp [h])
    | _, isFalse h, _ => isFalse (by simp [h])
    | _, _, isFalse h => isFalse (by simp [h])

end

instance : DecidableEq Json := decideEq

/-- The entries whose name is a text. -/
def named (entries : List (Json × Json)) : Members :=
  entries.filterMap fun
    | (.str name, value) => some (name, value)
    | _ => none

/-- The members of an object whose names are texts; nothing for every other value. -/
def members? : Json → Option Members
  | .obj members => some members
  | .mixed entries => some (named entries)
  | _ => none

@[simp] theorem members?_obj (members : Members) : (obj members).members? = some members := rfl

/-- A member's value, or `null` for an object without that member and for every other value. -/
def member (value : Json) (name : String) : Json :=
  match value.members? with
  | some members => (members.lookup name).getD .null
  | none => .null

def isNull : Json → Bool
  | .null => true
  | _ => false

/-- An optional value, a missing one being `null`. -/
def ofOption {α : Type} (f : α → Json) : Option α → Json
  | none => .null
  | some a => f a

def ofStrings (texts : List String) : Json := .arr (texts.map .str)

/-- `null`, `false`, zero and everything empty count for nothing. -/
def isVoid : Json → Bool
  | .null => true
  | .bool b => !b
  | .int n => n == 0
  | .double x => x.isZero
  | .str s => s.isEmpty
  | .arr items => items.isEmpty
  | .obj members => members.isEmpty
  | .mixed entries => entries.isEmpty
  | .foreign .. => false

end Json

end Schemata
