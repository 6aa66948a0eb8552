import Schemata.Json.Display

/-! Plain data values, which are those that JSON has a notation for. A schema file holds others too:
numbers that are not finite, dates and the like, and objects whose names are no texts. A payload
writes a plain value for each of them. -/

namespace Schemata.Json

mutual

/-- Whether a value is plain, and everything inside it. -/
def isPlain : Json → Bool
  | .null | .bool _ | .int _ | .str _ => true
  | .double x => x.isFinite
  | .arr items => arePlain items
  | .obj members => arePlainMembers members
  | .mixed _ | .foreign .. => false

def arePlain : List Json → Bool
  | [] => true
  | item :: rest => isPlain item && arePlain rest

def arePlainMembers : List (String × Json) → Bool
  | [] => true
  | (_, value) :: rest => isPlain value && arePlainMembers rest

end

/-- The text that a payload has for the name of a member. -/
def nameText : Json → String
  | .bool b => if b then "true" else "false"
  | .foreign _ _ written => written.spoken
  | name => name.spoken

mutual

/-- The plain value that a payload has for a value. Names that become the same text are one name. -/
def plain : Json → Json
  | .null => .null
  | .bool b => .bool b
  | .int n => .int n
  | .double x => if x.isFinite then .double x else .null
  | .str s => .str s
  | .arr items => .arr (plainItems items)
  | .obj members => .obj (plainMembers members)
  | .mixed entries => .obj (plainEntries [] entries)
  | .foreign _ _ written => plain written

def plainItems : List Json → List Json
  | [] => []
  | item :: rest => plain item :: plainItems rest

def plainMembers : List (String × Json) → Members
  | [] => []
  | (name, value) :: rest => (name, plain value) :: plainMembers rest

/-- Entries put behind members that are plain already. -/
def plainEntries (earlier : Members) : List (Json × Json) → Members
  | [] => earlier
  | (name, value) :: rest => plainEntries (earlier.put (nameText name) (plain value)) rest

end

theorem arePlainMembers_iff {members : Members} :
    arePlainMembers members = true ↔ ∀ member ∈ members, member.2.isPlain = true := by
  induction members with
  | nil => simp [arePlainMembers]
  | cons member rest ih => simp [arePlainMembers, ih]

private theorem arePlainMembers_put {members : Members} (before : arePlainMembers members = true)
    {value : Json} (plain : value.isPlain = true) (name : String) :
    arePlainMembers (members.put name value) = true := by
  induction members with
  | nil => simpa [arePlainMembers] using plain
  | cons member rest ih =>
    obtain ⟨key, old⟩ := member
    simp only [arePlainMembers, Bool.and_eq_true] at before
    rw [Keyed.put]
    split <;> simp [arePlainMembers, before, plain, ih]

mutual

theorem isPlain_plain : ∀ value : Json, value.plain.isPlain = true
  | .null | .bool _ | .int _ | .str _ => rfl
  | .double x => by
    rw [plain]
    split
    · assumption
    · rfl
  | .arr items => arePlain_plainItems items
  | .obj members => arePlainMembers_plainMembers members
  | .mixed entries => arePlainMembers_plainEntries [] rfl entries
  | .foreign _ _ written => isPlain_plain written

theorem arePlain_plainItems : ∀ items, arePlain (plainItems items) = true
  | [] => rfl
  | item :: rest => Bool.and_eq_true_iff.mpr ⟨isPlain_plain item, arePlain_plainItems rest⟩

theorem arePlainMembers_plainMembers : ∀ members, arePlainMembers (plainMembers members) = true
  | [] => rfl
  | (_, value) :: rest =>
    Bool.and_eq_true_iff.mpr ⟨isPlain_plain value, arePlainMembers_plainMembers rest⟩

theorem arePlainMembers_plainEntries (earlier : Members) (before : arePlainMembers earlier = true) :
    ∀ entries, arePlainMembers (plainEntries earlier entries) = true
  | [] => before
  | (_, value) :: rest =>
    arePlainMembers_plainEntries _ (arePlainMembers_put before (isPlain_plain value) _) rest

end

mutual

/-- A plain value is written as it is. -/
theorem plain_of_isPlain : ∀ {value : Json}, value.isPlain = true → value.plain = value
  | .null, _ | .bool _, _ | .int _, _ | .str _, _ => rfl
  | .double _, finite => if_pos finite
  | .arr _, all => congrArg arr (plainItems_of_arePlain all)
  | .obj _, all => congrArg obj (plainMembers_of_arePlainMembers all)

theorem plainItems_of_arePlain : ∀ {items : List Json}, arePlain items = true →
    plainItems items = items
  | [], _ => rfl
  | _ :: _, all => by
    obtain ⟨first, others⟩ := Bool.and_eq_true_iff.mp all
    rw [plainItems, plain_of_isPlain first, plainItems_of_arePlain others]

theorem plainMembers_of_arePlainMembers :
    ∀ {members : Members}, arePlainMembers members = true → plainMembers members = members
  | [], _ => rfl
  | (_, _) :: _, all => by
    obtain ⟨first, others⟩ := Bool.and_eq_true_iff.mp all
    rw [plainMembers, plain_of_isPlain first, plainMembers_of_arePlainMembers others]

end

theorem plainMembers_eq_map (members : Members) :
    plainMembers members = members.map fun member => (member.1, member.2.plain) := by
  induction members with
  | nil => rfl
  | cons member rest ih => rw [plainMembers, ih, List.map_cons]

/-- Every member of plain members is plain. -/
theorem isPlain_of_mem_plainMembers {members : Members} :
    ∀ member ∈ plainMembers members, member.2.isPlain = true :=
  arePlainMembers_iff.mp (arePlainMembers_plainMembers members)

end Schemata.Json
