import Schemata.Sql.Naming

/-! Derived names. None is longer than the database allows, and where the digests of long names
differ, two names that differ are derived to one only if the one is kept as it is and looks like the
other one cut. -/

namespace Schemata.Sql

/-- The parts of a derived name, joined and not yet cut. -/
def joinedName (parts : List String) : String := "_".intercalate parts

/-- A name that the database would cut off. -/
def IsLong (name : String) : Prop := maxNameLength < name.length

instance : DecidablePred IsLong :=
  fun name => inferInstanceAs (Decidable (maxNameLength < name.length))

/-- The digest of a name as it stands at the end of the name when that is cut. -/
def digestOf (name : String) : List Char := (Sha256.hexDigest name).toList.take digestLength

/-- A long name, cut: its beginning and its digest. -/
def cutName (name : String) : String :=
  .ofList (name.toList.take (maxNameLength - digestLength - 1) ++ '_' :: digestOf name)

theorem length_digestOf (name : String) : (digestOf name).length = digestLength := by
  have word : ∀ w, 8 ≤ (Sha256.hexWord w).length := by
    intro w
    simp only [Sha256.hexWord, List.length_append, List.length_replicate]
    omega
  have long : 8 ≤ (Sha256.hexDigest name).toList.length := by
    simp only [Sha256.hexDigest, Sha256.digest, Sha256.State.words, String.toList_ofList,
      List.flatMap_cons, List.length_append]
    exact Nat.le_trans (word _) (Nat.le_add_right _ _)
  rw [digestOf, List.length_take, digestLength]
  exact Nat.min_eq_left long

theorem length_take_of_long (long : IsLong name) :
    (name.toList.take (maxNameLength - digestLength - 1)).length =
      maxNameLength - digestLength - 1 := by
  rw [IsLong, ← String.length_toList] at long
  rw [List.length_take]
  exact Nat.min_eq_left (by omega)

private theorem length_cutName (long : IsLong name) : (cutName name).length = maxNameLength := by
  rw [cutName, ← String.length_toList, String.toList_ofList, List.length_append, List.length_cons,
    length_take_of_long long, length_digestOf]
  rfl

theorem derivedName_eq (parts : List String) : derivedName parts =
    if IsLong (joinedName parts) then cutName (joinedName parts) else joinedName parts := by
  rw [derivedName, derivedNameWithin, joinedName]
  generalize "_".intercalate parts = name
  have digest : ((Sha256.hexDigest name).toList.take digestLength).length = digestLength :=
    length_digestOf name
  by_cases long : IsLong name
  · have exceeds : ¬ (name.length : Int) ≤ maxNameLength := by
      rw [IsLong] at long
      omega
    rw [if_pos long, if_neg exceeds]
    simp only [digest]
    rfl
  · have fits : (name.length : Int) ≤ maxNameLength := by
      rw [IsLong] at long
      omega
    rw [if_neg long, if_pos fits]

theorem derivedName_of_long (long : IsLong (joinedName parts)) :
    derivedName parts = cutName (joinedName parts) := by
  rw [derivedName_eq, if_pos long]

theorem derivedName_of_short (short : ¬ IsLong (joinedName parts)) :
    derivedName parts = joinedName parts := by
  rw [derivedName_eq, if_neg short]

theorem length_derivedName_le (parts : List String) :
    (derivedName parts).length ≤ maxNameLength := by
  by_cases long : IsLong (joinedName parts)
  · rw [derivedName_of_long long]
    exact Nat.le_of_eq (length_cutName long)
  · rw [derivedName_of_short long]
    exact Nat.le_of_not_lt long

private theorem digestOf_eq_of_cutName_eq (long : IsLong one) (wide : IsLong other)
    (same : cutName one = cutName other) : digestOf one = digestOf other := by
  have texts := congrArg String.toList same
  rw [cutName, cutName, String.toList_ofList, String.toList_ofList] at texts
  have cut := (length_take_of_long long).trans (length_take_of_long wide).symm
  exact (List.cons.inj (List.append_inj texts cut).2).2

/-- Two different names are derived to one: both are long and have one digest, or one is short and
looks like the other one cut. -/
theorem joinedName_cases (same : derivedName parts = derivedName others) :
    joinedName parts = joinedName others ∨
    (IsLong (joinedName parts) ∧ IsLong (joinedName others) ∧
      digestOf (joinedName parts) = digestOf (joinedName others)) ∨
    (¬ IsLong (joinedName parts) ∧ IsLong (joinedName others) ∧
      joinedName parts = cutName (joinedName others)) ∨
    (IsLong (joinedName parts) ∧ ¬ IsLong (joinedName others) ∧
      joinedName others = cutName (joinedName parts)) := by
  by_cases long : IsLong (joinedName parts) <;> by_cases wide : IsLong (joinedName others)
  · rw [derivedName_of_long long, derivedName_of_long wide] at same
    exact .inr (.inl ⟨long, wide, digestOf_eq_of_cutName_eq long wide same⟩)
  · rw [derivedName_of_long long, derivedName_of_short wide] at same
    exact .inr (.inr (.inr ⟨long, wide, same.symm⟩))
  · rw [derivedName_of_short long, derivedName_of_long wide] at same
    exact .inr (.inr (.inl ⟨long, wide, same⟩))
  · rw [derivedName_of_short long, derivedName_of_short wide] at same
    exact .inl same

theorem joinedName_triple_inj (same : joinedName [kind, table, one] =
    joinedName [kind, table, other]) :
    one = other := by
  have texts := congrArg String.toList same
  exact String.toList_inj.mp (by simpa [joinedName] using texts)

end Schemata.Sql
