import Schemata.Proofs.Refinement.Steps
import Schemata.Proofs.Rules.Sound
import Schemata.Proofs.Schema.Exchange
import Schemata.Proofs.Schema.Reading

/-! What changes leave alone. A table that no change names and a relationship that no change deletes
come out of a revision as they went in, and in their order. -/

namespace Schemata

variable {payload next : Members} {tables relationships others links : List Json}
  {schema revised : Schema}

namespace Change

/-- The change is not about the table. -/
def leaves (change : Change) (table : Table) : Bool := change.table? ≠ some (.str table.name)

/-- The change deletes no table that the relationship mentions, nor relationships that start where
it does. -/
def spares (r : Relationship) : Change → Bool
  | deleteTable name => name ≠ .str r.fromTable ∧ name ≠ .str r.toTable
  | deleteRelationship fromTable fromColumn =>
    ¬(fromTable = .str r.fromTable ∧ fromColumn = .str r.fromColumn)
  | _ => true

end Change

/-! ### Rows that stay -/

private theorem sublist_replace {wanted before after : List α}
    (there : wanted.Sublist (before ++ old :: after)) (other : old ∉ wanted) (new : α) :
    wanted.Sublist (before ++ new :: after) := by
  obtain ⟨front, back, rfl, first, second⟩ := List.sublist_append_iff.mp there
  refine first.append ?_
  rcases List.sublist_cons_iff.mp second with later | ⟨rest, rfl, -⟩
  · exact later.cons new
  · simp at other

theorem sublist_filter {wanted rows : List α} {test : α → Bool} (there : wanted.Sublist rows)
    (accepted : ∀ row ∈ wanted, test row = true) : wanted.Sublist (rows.filter test) := by
  have kept := there.filter test
  rwa [List.filter_eq_self.mpr accepted] at kept

namespace Edit

theorem leaves_iff {change : Change} {table : Table} :
    change.leaves table = true ↔
      ∀ name, change.table? = some name → ((table.toJson .omitted).member "name").same name =
        false := by
  have named : (table.toJson .omitted).member "name" = .str table.name := rfl
  simp only [Change.leaves, named, ne_eq, decide_eq_true_eq, ← Bool.not_eq_true, Json.same_str_iff]
  constructor
  · rintro leaves name about rfl
    exact leaves about
  · exact fun other about => other _ about rfl

theorem Reshapes.tables_sublist {kept : List Table}
    (reshaped : Reshapes change tables relationships others links)
    (left : ∀ table ∈ kept, change.leaves table = true)
    (there : (kept.map (Table.toJson .omitted)).Sublist tables) :
    (kept.map (Table.toJson .omitted)).Sublist others := by
  cases reshaped with
  | addTable => exact there.trans (List.sublist_append_left ..)
  | @onTable _ name old new before after _ about named =>
    refine sublist_replace there (fun listed => ?_) new
    obtain ⟨table, member, rfl⟩ := List.mem_map.mp listed
    rw [leaves_iff.mp (left table member) name about] at named
    cases named
  | @deleteTable name =>
    refine sublist_filter there fun row listed => ?_
    obtain ⟨table, member, rfl⟩ := List.mem_map.mp listed
    rw [leaves_iff.mp (left table member) name rfl, Bool.not_false]
  | addRelationship | deleteRelationship => exact there

theorem Reshapes.relationships_sublist {kept : List Relationship}
    (reshaped : Reshapes change tables relationships others links)
    (spared : ∀ r ∈ kept, change.spares r = true)
    (there : (kept.map Relationship.toJson).Sublist relationships) :
    (kept.map Relationship.toJson).Sublist links := by
  cases reshaped with
  | addRelationship => exact there.trans (List.sublist_append_left ..)
  | @deleteTable name =>
    refine sublist_filter there fun row listed => ?_
    obtain ⟨r, member, rfl⟩ := List.mem_map.mp listed
    have ends : (r.toJson.member "from_table") = .str r.fromTable ∧ (r.toJson.member "to_table") =
        .str r.toTable :=
      ⟨rfl, rfl⟩
    have apart := spared r member
    simp only [Change.spares, decide_eq_true_eq] at apart
    simp only [ends, Bool.not_or, Bool.and_eq_true, Bool.not_eq_true', ← Bool.not_eq_true,
      Json.same_str_iff]
    exact apart
  | @deleteRelationship fromTable fromColumn =>
    refine sublist_filter there fun row listed => ?_
    obtain ⟨r, member, rfl⟩ := List.mem_map.mp listed
    have start : (r.toJson.member "from_table") = .str r.fromTable ∧
        (r.toJson.member "from_column") = .str r.fromColumn := ⟨rfl, rfl⟩
    have apart := spared r member
    simp only [Change.spares, decide_eq_true_eq] at apart
    simpa only [start, Bool.not_eq_true', ← Bool.not_eq_true, Bool.and_eq_true, Json.same_str_iff]
      using apart
  | addTable | onTable => exact there

end Edit

open Edit

/-! ### Lists of changes -/

theorem holds_members (schema : Schema) :
    Holds (schema.members .omitted) (schema.tables.map (Table.toJson .omitted))
    (schema.relationships.map Relationship.toJson) := ⟨rfl, rfl⟩

/-- Whatever is wanted of a form and left alone by each change is there after all of them. -/
theorem foldlM_keeps {changes : List Change} (kept : List Table) (spared : List Relationship)
    (left : ∀ change ∈ changes, ∀ table ∈ kept, change.leaves table = true)
    (aside : ∀ change ∈ changes, ∀ r ∈ spared, change.spares r = true)
    (holds : Holds payload tables relationships)
    (there : (kept.map (Table.toJson .omitted)).Sublist tables)
    (linked : (spared.map Relationship.toJson).Sublist relationships)
    (applied : changes.foldlM Change.apply payload = .ok next) :
    ∃ others links, Holds next others links ∧ next.lookup "version" = payload.lookup "version" ∧
      (kept.map (Table.toJson .omitted)).Sublist others ∧
        (spared.map Relationship.toJson).Sublist links := by
  induction changes generalizing payload tables relationships with
  | nil =>
    cases applied
    exact ⟨tables, relationships, holds, rfl, there, linked⟩
  | cons change rest ih =>
    obtain ⟨middle, first, applied⟩ := Change.foldlM_cons_eq_ok_iff.mp applied
    obtain ⟨others, links, reshaped, between, same⟩ := step_reshapes holds first
    have stays := reshaped.tables_sublist (left change List.mem_cons_self) there
    have lasts := reshaped.relationships_sublist (aside change List.mem_cons_self) linked
    obtain ⟨rows, ends, after, version, result⟩ := ih (fun c member =>
      left c (List.mem_cons_of_mem _ member))
      (fun c member => aside c (List.mem_cons_of_mem _ member)) between stays lasts applied
    exact ⟨rows, ends, after, version.trans same, result⟩

theorem revise_eq_ok_iff : schema.revise changes = .ok revised ↔ schema.isWritable = true ∧
    ∃ payload, changes.foldlM Change.apply (schema.members .omitted) = .ok payload ∧
      Schema.ofMembers payload = .valid revised := by
  have begun : Change.applyAll (schema.members .omitted) changes =
      changes.foldlM Change.apply (schema.members .omitted) := rfl
  unfold Schema.revise
  rw [begun]
  cases schema.isWritable <;> cases changes.foldlM Change.apply (schema.members .omitted) with
  | error e => simp
  | ok payload => cases read : Schema.ofMembers payload <;> simp [read]

theorem version_of_lookup (found : payload.lookup "version" = some (.str version))
    (read : Schema.ofMembers payload = .valid revised) : revised.version = version := by
  obtain ⟨given, -⟩ := Schema.ofMembers_eq_valid_iff.mp read
  rw [Decode.optional_of_lookup found] at given
  exact (Checked.valid.inj given).symm

/-- Values that are written among the items of a list are among those that are read from it. -/
theorem sublist_of_read {decode : Json → Checked α} {write : α → Json} {items : List Json}
    {read wanted : List α} (each : List.Forall₂ (fun item a => decode item = .valid a) items read)
    (there : (wanted.map write).Sublist items) (reads : ∀ a ∈ wanted, decode (write a) = .valid a) :
    wanted.Sublist read := by
  -- reading is a filter that drops nothing, so a part of the items reads as the part of what is
  -- read
  have whole : items.filterMap (fun item => (decode item).toOption) = read := by
    clear there
    induction each with
    | nil => rfl
    | @cons item a _ _ first _ ih =>
      have known : (decode item).toOption = some a := by rw [first]; rfl
      rw [List.filterMap_cons, known, ih]
  have part : (wanted.map write).filterMap (fun item => (decode item).toOption) = wanted := by
    rw [List.filterMap_map]
    refine (List.filterMap_congr fun a member => ?_).trans List.filterMap_some
    exact congrArg Checked.toOption (reads a member)
  rw [← whole, ← part]
  exact there.filterMap _

/-- A revision keeps the version, and in their order the tables that no change names, whole as they
are, and the relationships that no change deletes. -/
theorem Schema.revise_frame
    (clear : ∀ table ∈ schema.tables, ∀ extra ∈ table.hints.extras, extra.2 ≠ .null)
    (done : schema.revise changes = .ok revised) :
    revised.version = schema.version ∧
    (schema.tables.filter fun table => changes.all (·.leaves table)).Sublist revised.tables ∧
    (schema.relationships.filter fun r => changes.all (·.spares r)).Sublist
      revised.relationships := by
  obtain ⟨-, payload, applied, read⟩ := revise_eq_ok_iff.mp done
  obtain ⟨rows, links, holds, same, tables, relationships⟩ := foldlM_keeps
    (schema.tables.filter fun table => changes.all (·.leaves table))
    (schema.relationships.filter fun r => changes.all (·.spares r))
    (fun change member table kept => List.all_eq_true.mp (List.mem_filter.mp kept).2 change member)
    (fun change member r kept => List.all_eq_true.mp (List.mem_filter.mp kept).2 change member)
    (holds_members schema) (List.filter_sublist.map _) (List.filter_sublist.map _) applied
  have version : payload.lookup "version" = some (.str schema.version) := same
  obtain ⟨-, tablesRead, linksRead⟩ := Schema.ofMembers_eq_valid_iff.mp read
  rw [Decode.optional_of_lookup holds.tables, Checked.under_eq_valid_iff, Decode.list_eq_valid_iff]
    at tablesRead
  rw [Decode.optional_of_lookup holds.relationships, Checked.under_eq_valid_iff,
    Decode.list_eq_valid_iff] at linksRead
  obtain ⟨_, listed, eachTable⟩ := tablesRead
  obtain ⟨_, linked, eachLink⟩ := linksRead
  cases listed
  cases linked
  refine ⟨version_of_lookup version read, sublist_of_read eachTable tables fun table kept => ?_,
    sublist_of_read eachLink relationships fun r _ => r.decode_toJson⟩
  have settled : table.settled = table := by
    have same := Hints.settled_eq_iff.mpr (clear table (List.mem_filter.mp kept).1)
    rw [Table.settled, same]
  rw [Table.decode_toJson, settled]

/-- Companies become firms, and a table of notes is new. -/
def firms : List Change := [
  .modifyTable (.str "company") [("name", .str "firm")],
  .addTable [("name", .str "note")]]

/-- Deals and their relationship are kept when companies become firms. -/
theorem Schema.deals_kept_by_firms :
    (∀ table ∈ deals.tables, ∀ extra ∈ table.hints.extras, extra.2 ≠ .null) ∧
    ∃ revised, deals.revise firms = .ok revised ∧ revised.version = "1.0.0" ∧
      (deals.tables.take 1).Sublist revised.tables ∧
        deals.relationships.Sublist revised.relationships := by
  have clear : ∀ table ∈ deals.tables, ∀ extra ∈ table.hints.extras, extra.2 ≠ .null := by decide
  have left : (deals.tables.filter fun table => firms.all (·.leaves table)) =
      deals.tables.take 1 := by
    decide +kernel
  have spared : (deals.relationships.filter fun r => firms.all (·.spares r)) =
      deals.relationships := by
    decide +kernel
  cases done : deals.revise firms with
  | error e =>
    have applies : (deals.revise firms).isOk = true := by decide +kernel
    rw [done] at applies
    cases applies
  | ok revised =>
    have kept := revise_frame clear done
    rw [left, spared] at kept
    exact ⟨clear, revised, rfl, kept⟩

end Schemata
