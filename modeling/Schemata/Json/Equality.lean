import Schemata.Json.Basic

/-! Equality of what data values stand for. Truth values count as 0 and 1, whole doubles equal
their integers, and the order of an object's members does not matter. -/

namespace Schemata.Json

/-- The integer that a value equals, if any. -/
def wholeNumber? : Json → Option Int
  | .bool b => some (if b then 1 else 0)
  | .int n => some n
  | .double x => x.toInt?
  | _ => none

/-- Equality of two values that are neither arrays nor objects. Values of other kinds are equal when
they are shown alike. -/
def sameScalar (a b : Json) : Bool :=
  match a, b with
  | .null, .null => true
  | .str s, .str t => s == t
  | .double x, .double y => x.sameNumber y
  | .foreign _ shown _, .foreign _ shown' _ => shown == shown'
  | _, _ =>
    match a.wholeNumber?, b.wholeNumber? with
    | some m, some n => m == n
    | _, _ => false

mutual

/-- Whether two values stand for the same thing. -/
def same : Json → Json → Bool
  | .arr xs, .arr ys => sameItems xs ys
  | .obj xs, .obj ys => xs.length == ys.length && sameMembers xs ys
  | .mixed xs, .mixed ys => xs.length == ys.length && sameEntries xs ys
  | .arr _, _ | .obj _, _ | .mixed _, _ | _, .arr _ | _, .obj _ | _, .mixed _ => false
  | a, b => sameScalar a b

def sameItems : List Json → List Json → Bool
  | [], [] => true
  | x :: xs, y :: ys => same x y && sameItems xs ys
  | _, _ => false

/-- Every member of the first list has an equal one in the second. -/
def sameMembers : List (String × Json) → List (String × Json) → Bool
  | [], _ => true
  | (name, x) :: xs, ys =>
    (match ys.lookup name with
      | some y => same x y
      | none => false) && sameMembers xs ys

/-- Every entry of the first list has an equal one in the second. -/
def sameEntries : List (Json × Json) → List (Json × Json) → Bool
  | [], _ => true
  | (name, x) :: xs, ys => (ys.any fun (key, y) => same name key && same x y) && sameEntries xs ys

end

theorem same_str (s t : String) : same (.str s) (.str t) = (s == t) := by
  simp [same, sameScalar]

end Schemata.Json
