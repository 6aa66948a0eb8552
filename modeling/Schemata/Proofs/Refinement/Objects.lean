import Schemata.Proofs.Keyed
import Schemata.Proofs.Shape.Reading
import Schemata.Refinement.Edit

/-! Objects that are changed member by member. What stands under a key afterwards depends on what
was put last under that key, and on nothing else. -/

namespace Schemata

namespace Edit

variable {object value : Json} {members changes : Members}

theorem named_putEntry (entries : List (Json × Json)) (key : String) (value : Json) :
    Json.named (putEntry entries key value) = (Json.named entries).put key value := by
  induction entries with
  | nil => rfl
  | cons head rest ih =>
    obtain ⟨name, old⟩ := head
    by_cases same : name = .str key
    · subst same
      simp [putEntry, Json.named, Keyed.put]
    · simp only [Json.named] at ih ⊢
      rw [putEntry, if_neg same, List.filterMap_cons, List.filterMap_cons]
      cases name with
      | str other =>
        have differs : other ≠ key := fun equal => same (congrArg Json.str equal)
        simp [Keyed.put, differs, ih]
      | _ => simp [ih]

@[simp]
theorem members?_put (object : Json) (key : String) (value : Json) :
    (put object key value).members? = object.members?.map (·.put key value) := by
  cases object <;> simp [put, Json.members?, named_putEntry]

/-- A reading that follows every member that is put follows all that are merged. -/
private theorem read_merge {read : Json → Option Members}
    (read_put : ∀ object key value, read (put object key value) =
      (read object).map (·.put key value))
    (object : Json) (changes : Members) :
    read (merge object changes) = (read object).map (·.merge changes) := by
  induction changes generalizing object with
  | nil => simp [merge, Keyed.merge]
  | cons change rest ih =>
    rw [merge, List.foldl_cons, ← merge, ih, read_put, Option.map_map]
    rfl

@[simp]
theorem members?_merge (object : Json) (changes : Members) :
    (merge object changes).members? = object.members?.map (·.merge changes) :=
  read_merge members?_put object changes

private theorem all_putEntry (entries : List (Json × Json)) (key : String) (value : Json) :
    (putEntry entries key value).all (fun entry => Decode.isText entry.1) =
      entries.all fun entry => Decode.isText entry.1 := by
  induction entries with
  | nil => rfl
  | cons head rest ih =>
    obtain ⟨name, old⟩ := head
    rw [putEntry]
    split
    · rfl
    · rw [List.all_cons, List.all_cons, ih]

private theorem texts?_put (object : Json) (key : String) (value : Json) :
    (put object key value).texts? = object.texts?.map (·.put key value) := by
  cases object with
  | mixed entries =>
    rw [put, Json.texts?, Json.texts?, all_putEntry, named_putEntry]
    split <;> rfl
  | _ => rfl

theorem texts?_merge (object : Json) (changes : Members) :
    (merge object changes).texts? = object.texts?.map (·.merge changes) :=
  read_merge texts?_put object changes

theorem members?_put_of (read : object.members? = some members) (key : String) (value : Json) :
    (put object key value).members? = some (members.put key value) := by
  rw [members?_put, read, Option.map_some]

theorem members?_merge_of (read : object.members? = some members) (changes : Members) :
    (merge object changes).members? = some (members.merge changes) := by
  rw [members?_merge, read, Option.map_some]

theorem isObject_iff : isObject object = true ↔ ∃ members, object.members? = some members := by
  rw [isObject, Option.isSome_iff_exists]

theorem lookup?_of_members? (read : object.members? = some members) (key : String) :
    lookup? object key = members.lookup key := by
  simp [lookup?, read]

theorem member_of_members? (read : object.members? = some members) (key : String) :
    object.member key = (members.lookup key).getD .null := by
  simp [Json.member, read]

end Edit

end Schemata
