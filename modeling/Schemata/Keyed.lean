/-! Values under names, in order. Putting a value keeps the place of a name that is there and adds a
new name at the end; the first entry of a name is the one that counts. -/

namespace Schemata

/-- Entries of a name and a value. -/
abbrev Keyed (α : Type) := List (String × α)

namespace Keyed

variable {α : Type}

def keys (entries : Keyed α) : List String := entries.map (·.1)

/-- Replaces the value of a name in its place, or adds the name at the end. -/
def put (entries : Keyed α) (name : String) (value : α) : Keyed α :=
  match entries with
  | [] => [(name, value)]
  | (key, old) :: rest =>
    if key = name then (name, value) :: rest else (key, old) :: put rest name value

/-- Puts every entry of the second list into the first, from left to right. -/
def merge (entries changes : Keyed α) : Keyed α :=
  changes.foldl (fun acc change => acc.put change.1 change.2) entries

/-- Every name once, in the order of first mention, with the value that was given last. -/
def ofList (entries : List (String × α)) : Keyed α := merge [] entries

/-- The entries of all other names. -/
def without (entries : Keyed α) (name : String) : Keyed α :=
  entries.filter fun entry => entry.1 != name

/-- Every name once with the last value of that name, the name being part of the value. -/
def latest (nameOf : α → String) (values : List α) : Keyed α :=
  ofList (values.map fun value => (nameOf value, value))

@[simp] theorem put_nil (name : String) (value : α) : Keyed.put [] name value = [(name, value)] :=
  rfl

theorem lookup_put (entries : Keyed α) (name key : String) (value : α) :
    (entries.put name value).lookup key =
      if key = name then some value else entries.lookup key := by
  induction entries with
  | nil =>
    by_cases same : key = name
    · simp [same]
    · simp [List.lookup_cons, same, beq_eq_false_iff_ne.mpr same]
  | cons head rest ih =>
    obtain ⟨first, old⟩ := head
    by_cases here : first = name
    · subst here
      by_cases same : key = first
      · simp [put, same]
      · simp [put, List.lookup_cons, same, beq_eq_false_iff_ne.mpr same]
    · by_cases same : key = first
      · subst same
        simp [put, here]
      · simp [put, here, List.lookup_cons, beq_eq_false_iff_ne.mpr same, ih]

end Keyed

end Schemata
