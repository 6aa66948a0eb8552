import Schemata.Digest.Sha256

/-! Names derived from other names. A derived name that would be cut off by the database keeps its
beginning and ends in a short digest of the whole. -/

namespace Schemata.Sql

/-- Names longer than this are cut off by the database. -/
def maxNameLength : Nat := 63

/-- The length of a digest inside a name. -/
def digestLength : Nat := 8

/-- The first characters up to an end that counts from the back when it is negative. -/
def takeUpTo (stop : Int) (cs : List Char) : List Char :=
  if 0 ≤ stop then cs.take stop.toNat else cs.take ((cs.length : Int) + stop).toNat

/-- Joins the parts with underscores, within a limit. -/
def derivedNameWithin (limit : Int) (parts : List String) : String :=
  let name := "_".intercalate parts
  if name.length ≤ limit then name
  else
    let digest := (Sha256.hexDigest name).toList.take digestLength
    .ofList (takeUpTo (limit - digest.length - 1) name.toList ++ '_' :: digest)

/-- Joins the parts with underscores into a name that the database keeps whole. -/
def derivedName (parts : List String) : String := derivedNameWithin maxNameLength parts

end Schemata.Sql
