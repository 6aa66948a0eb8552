import Mathlib.Data.List.Forall2
import Schemata.Shape.Decode

/-! What a value that is read in full looks like: each reader gives a value exactly when its parts
do. -/

namespace Schemata

namespace Checked

variable {c : Checked α}

theorem map_eq_valid_iff {f : α → β} : f <$> c = valid b ↔ ∃ a, c = valid a ∧ f a = b := by
  cases c <;> simp

theorem seq_eq_valid_iff {f : Checked (α → β)} :
    f <*> c = valid b ↔ ∃ g, f = valid g ∧ ∃ a, c = valid a ∧ g a = b := by
  constructor
  · intro made
    cases f with
    | valid g =>
      cases c with
      | valid a => exact ⟨g, rfl, a, rfl, valid.inj made⟩
      | invalid errors => cases made
    | invalid errors => cases c <;> cases made
  · rintro ⟨g, rfl, a, rfl, rfl⟩
    rfl

theorem under_eq_valid_iff : c.under step = valid a ↔ c = valid a := by
  cases c <;> simp [under]

end Checked

open Checked

namespace Decode

variable {decode : Json → Checked α} {members others : Members}

theorem string_eq_valid_iff : string value = .valid s ↔ value = .str s := by
  cases value <;> simp [string, Checked.fail]

theorem record_eq_valid_iff {ofMembers : Members → Checked α} :
    record name ofMembers value = .valid a ↔
      ∃ members, value.members? = some members ∧ ofMembers members = .valid a := by
  unfold record
  cases value.members? <;> simp [Checked.fail]

theorem required_eq_valid_iff :
    required members name decode = .valid a ↔
      ∃ value, members.lookup name = some value ∧ decode value = .valid a := by
  unfold required
  cases members.lookup name <;> simp [under_eq_valid_iff, Checked.fail]

theorem required_string_eq_valid_iff :
    required members name string = .valid s ↔ members.lookup name = some (.str s) := by
  simp [required_eq_valid_iff, string_eq_valid_iff]

theorem list_eq_valid_iff : list decode value = .valid as ↔
    ∃ items, value = .arr items ∧ List.Forall₂ (fun item a => decode item = .valid a) items as := by
  have onward : ∀ items n as, itemsFrom decode n items = .valid as ↔
      List.Forall₂ (fun item a => decode item = .valid a) items as := by
    intro items
    induction items with
    | nil => intro n as; simp [itemsFrom, eq_comm]
    | cons item rest ih =>
      intro n as
      simp only [itemsFrom, seq_eq_valid_iff, map_eq_valid_iff, under_eq_valid_iff, ih,
        List.forall₂_cons_left_iff]
      constructor
      · rintro ⟨-, ⟨a, first, rfl⟩, others, later, rfl⟩
        exact ⟨a, others, first, later, rfl⟩
      · rintro ⟨a, others, first, later, rfl⟩
        exact ⟨_, ⟨a, first, rfl⟩, others, later, rfl⟩
  cases value <;> simp [list, onward, Checked.fail]

theorem list_congr {ps qs : List Json} (each : List.Forall₂ (fun p q => decode p =
    decode q) ps qs) :
    list decode (.arr ps) = list decode (.arr qs) := by
  have onward (n : Nat) : itemsFrom decode n ps = itemsFrom decode n qs := by
    induction each generalizing n with
    | nil => rfl
    | cons first _ ih => rw [itemsFrom, itemsFrom, first, ih]
  exact onward 0

theorem optional_congr {spellings : List String}
    (same : ∀ name ∈ spellings, members.lookup name = others.lookup name) (absent : α)
    (decode : Json → Checked α) :
    optional members spellings absent decode = optional others spellings absent decode := by
  have spelled : spelled? members spellings = spelled? others spellings := by
    unfold spelled?
    induction spellings with
    | nil => rfl
    | cons name rest ih =>
      rw [List.findSome?_cons, List.findSome?_cons, same name List.mem_cons_self,
        ih fun other inside => same other (List.mem_cons_of_mem _ inside)]
  rw [optional, optional, spelled]

theorem required_congr (same : members.lookup name = others.lookup name)
    (decode : Json → Checked α) :
    required members name decode = required others name decode := by
  rw [required, required, same]

theorem optional_of_lookup (found : members.lookup name = some value)
    (spellings : List String) (absent : α) (decode : Json → Checked α) :
    optional members (name :: spellings) absent decode = (decode value).under (.key name) := by
  simp [optional, spelled?, found]

theorem optional_list (members : Members) (name : String) (decode : Json → Checked α) :
    optional members [name] [] (list decode) =
      (list decode ((members.lookup name).getD (.arr []))).under (.key name) := by
  cases found : members.lookup name with
  | some value => exact optional_of_lookup found _ _ _
  | none => simp [optional, spelled?, found, list, itemsFrom, under]

end Decode

/-- The members of an object whose names are all texts. -/
def Json.texts? : Json → Option Members
  | obj members => some members
  | mixed entries => if entries.all fun entry =>
    Decode.isText entry.1 then some (named entries) else none
  | _ => none

theorem Json.members?_of_texts? {object : Json} (read : object.texts? = some members) :
    object.members? = some members := by
  cases object with
  | obj => exact read
  | mixed => exact (Option.ite_none_right_eq_some.mp read).2
  | _ => cases read

theorem Decode.named_eq_valid_iff {fault : Json → ShapeError} {entries : List (Json × Json)} :
    Decode.named fault entries = .valid members ↔ (Json.mixed entries).texts? = some members := by
  by_cases all : (entries.all fun entry => isText entry.1) = true
  · have none : (entries.filter fun entry => !isText entry.1) = [] := by simpa using all
    simp [named, Json.texts?, all, none]
  · have stray : (entries.filter fun entry => !isText entry.1) ≠ [] := by simpa using all
    simp only [named, Json.texts?, if_neg all, reduceCtorEq]

end Schemata
