import Mathlib.Data.List.Forall2
import Schemata.Json.Equality
import Schemata.Shape.Checked

/-! Data values and their parts: induction from the parts of a value to the value, the part at a
place, and equality part by part. -/

namespace Schemata.Json

/-- Values that hold no others. -/
def IsScalar : Json → Prop
  | .arr _ | .obj _ | .mixed _ => False
  | _ => True

/-- What goes from the parts of a value to the value holds of all values. -/
@[elab_as_elim]
theorem induction_on_parts {motive : Json → Prop}
    (scalar : ∀ value : Json, value.IsScalar → motive value)
    (arr : ∀ items, (∀ item ∈ items, motive item) → motive (.arr items))
    (obj : ∀ members, (∀ member ∈ members, motive member.2) → motive (.obj members))
    (mixed : ∀ entries, (∀ entry ∈ entries, motive entry.2) → motive (.mixed entries)) :
    ∀ value, motive value
  | .null => scalar _ trivial
  | .bool _ => scalar _ trivial
  | .int _ => scalar _ trivial
  | .double _ => scalar _ trivial
  | .str _ => scalar _ trivial
  | .foreign .. => scalar _ trivial
  | .arr items => arr items fun item _ => induction_on_parts scalar arr obj mixed item
  | .obj members => obj members fun member _ => induction_on_parts scalar arr obj mixed member.2
  | .mixed entries => mixed entries fun entry _ => induction_on_parts scalar arr obj mixed entry.2
termination_by value => sizeOf value
decreasing_by
  · have smaller := List.sizeOf_lt_of_mem ‹_›
    simp only [Json.arr.sizeOf_spec]
    omega
  · obtain ⟨name, value⟩ := member
    have smaller := List.sizeOf_lt_of_mem ‹_›
    simp only [Prod.mk.sizeOf_spec, Json.obj.sizeOf_spec] at smaller ⊢
    omega
  · obtain ⟨name, value⟩ := entry
    have smaller := List.sizeOf_lt_of_mem ‹_›
    simp only [Prod.mk.sizeOf_spec, Json.mixed.sizeOf_spec] at smaller ⊢
    omega

/-! ### Places -/

/-- The part of a value that one step leads to. -/
def part? (value : Json) : Step → Option Json
  | .key name => value.members?.bind (·.lookup name)
  | .index position =>
    match value with
    | .arr items => if 0 ≤ position then items[position.toNat]? else none
    | _ => none

/-- The part of a value at a place. -/
def at? (value : Json) : List Step → Option Json
  | [] => some value
  | step :: rest => (value.part? step).bind (at? · rest)

theorem IsScalar.at?_concat {value : Json} (scalar : value.IsScalar)
    (place : List Step) (step : Step) :
    value.at? (place ++ [step]) = none := by
  have partless (step : Step) : value.part? step = none := by
    cases value with
    | arr | obj | mixed => exact scalar.elim
    | _ => cases step <;> rfl
  cases place <;> simp [at?, partless]

/-- A value with nothing in its parts: a list of the same length, an object with the same keys, or
the scalar that it is. -/
def outline : Json → Json
  | .arr items => .arr (items.map fun _ => .null)
  | .obj members => .obj (members.map fun member => (member.1, .null))
  | .mixed entries => .mixed (entries.map fun entry => (entry.1, .null))
  | value => value

/-! ### Equality part by part -/

theorem sameItems_iff {items others : List Json} :
    sameItems items others = true ↔ List.Forall₂ (fun a b => same a b = true) items others := by
  induction items generalizing others with
  | nil => cases others <;> simp [sameItems]
  | cons item rest ih => cases others <;> simp [sameItems, ih]

theorem sameMembers_iff {members others : Members} :
    sameMembers members others = true ↔
      ∀ member ∈ members, ∃ other, others.lookup member.1 = some other ∧
        same member.2 other = true := by
  induction members with
  | nil => simp [sameMembers]
  | cons member rest ih =>
    obtain ⟨name, value⟩ := member
    rw [sameMembers, Bool.and_eq_true, ih, List.forall_mem_cons]
    cases others.lookup name <;> simp

theorem sameEntries_iff {entries others : List (Json × Json)} :
    sameEntries entries others = true ↔
      ∀ entry ∈ entries, ∃ other ∈ others, same entry.1 other.1 = true ∧
        same entry.2 other.2 = true := by
  induction entries with
  | nil => simp [sameEntries]
  | cons entry rest ih =>
    obtain ⟨name, value⟩ := entry
    rw [sameEntries, Bool.and_eq_true, ih, List.forall_mem_cons, List.any_eq_true]
    simp

theorem same_obj_iff {members others : Members} : same (.obj members) (.obj others) = true ↔
    members.length = others.length ∧
      ∀ member ∈ members, ∃ other, others.lookup member.1 = some other ∧
        same member.2 other = true := by
  rw [same, Bool.and_eq_true, beq_iff_eq, sameMembers_iff]

theorem IsScalar.of_same {a b : Json} (scalar : a.IsScalar) (alike : same a b = true) :
    b.IsScalar := by
  cases b with
  | arr items => cases a <;> simp_all [same, IsScalar]
  | obj members => cases a <;> simp_all [same, IsScalar]
  | mixed entries => cases a <;> simp_all [same, IsScalar]
  | _ => trivial

theorem same_str_iff {value : Json} : (Json.str s).same value = true ↔ value = .str s := by
  cases value with
  | str t => rw [same_str, beq_iff_eq, Json.str.injEq, eq_comm]
  | _ => simp [same, sameScalar, wholeNumber?]

end Schemata.Json
