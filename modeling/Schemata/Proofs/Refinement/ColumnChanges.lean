import Schemata.Proofs.Refinement.Batches
import Schemata.Proofs.Refinement.Forms

/-! Columns that are changed. A field that the changes give has afterwards what was given for it,
and a field that they do not give stays. The second spelling of the key flag alone is passed over:
the column is written out under the first one, and that one is read. -/

namespace Schemata

open Checked Decode Edit

/-- The fields of a column besides its name. -/
inductive ColumnField where
  | type | nullable | default | unique | primaryKey | references
  deriving DecidableEq, Repr

namespace ColumnField

def Value : ColumnField → Type
  | type => ColumnType
  | nullable | unique | primaryKey => Bool
  | default => Option String
  | references => Option Reference

/-- What a column has in a field. -/
def get (column : Column) : (field : ColumnField) → field.Value
  | type => column.type
  | nullable => column.nullable
  | default => column.default?
  | unique => column.unique
  | primaryKey => column.primaryKey
  | references => column.reference?

/-- What a value given for a field stands for. -/
def parse (value : Json) : (field : ColumnField) → Checked field.Value
  | type => ColumnType.decode value
  | nullable | unique | primaryKey => boolean value
  | default => decodeDefault value
  | references => Decode.nullable Reference.decode value

/-- The name under which a field is written out. -/
def key : ColumnField → String
  | type => "type"
  | nullable => "nullable"
  | default => "default"
  | unique => "unique"
  | primaryKey => "primaryKey"
  | references => "references"

/-- The names under which a field may be given. -/
def spellings : ColumnField → List String
  | primaryKey => [primaryKey.key, "primary_key"]
  | field => [field.key]

/-- The changes give the field once, under this name. -/
def Given (field : ColumnField) (changes : Members) (spelling : String) (value : Json) : Prop :=
  spelling ∈ field.spellings ∧ (spelling, value) ∈ changes ∧
    ∀ entry ∈ changes, entry.1 ∈ field.spellings → entry = (spelling, value)

instance (field : ColumnField) (changes : Members) (spelling : String) (value : Json) :
    Decidable (field.Given changes spelling value) :=
  inferInstanceAs (Decidable (_ ∧ _ ∧ _))

/-- What is read for a field from the members of a column. -/
def read (members : Members) : (field : ColumnField) → Checked field.Value
  | type => required members "type" ColumnType.decode
  | nullable => optional members ["nullable"] true boolean
  | default => optional members ["default"] none decodeDefault
  | unique => optional members ["unique"] false boolean
  | primaryKey => optional members ["primaryKey", "primary_key"] false boolean
  | references => optional members ["references"] none (Decode.nullable Reference.decode)

private theorem eq_of_get {a b : Column} (name : a.name = b.name)
    (same : ∀ field : ColumnField, field.get a = field.get b) :
    a = b := by
  cases a
  cases b
  exact Column.mk.injEq .. ▸ ⟨name, same .type, same .nullable, same .default, same .unique,
    same .primaryKey, same .references⟩

variable {field : ColumnField} {a b members changes : Members}

theorem read_of_ofMembers {column : Column} (valid : Column.ofMembers members = .valid column)
    (field : ColumnField) : field.read members = .valid (field.get column) := by
  obtain ⟨-, type, nullable, default, unique, primaryKey, references⟩ :=
    Column.ofMembers_eq_valid_iff.mp valid
  cases field with
  | type => exact type
  | nullable => exact nullable
  | default => exact default
  | unique => exact unique
  | primaryKey => exact primaryKey
  | references => exact references

theorem read_congr (same : ∀ spelling ∈ field.spellings, a.lookup spelling = b.lookup spelling) :
    field.read a = field.read b := by
  cases field with
  | type => exact required_congr (same _ List.mem_cons_self) _
  | nullable | default | unique | primaryKey | references => exact optional_congr same _ _

theorem read_of_lookup (found : members.lookup field.key = some value) :
    field.read members = (field.parse value).under (.key field.key) := by
  cases field with
  | type => simp only [read, required, key] at found ⊢; rw [found]; rfl
  | nullable | default | unique | primaryKey | references => exact optional_of_lookup found _ _ _

private theorem parse_of_given {new : Column} (after : Column.ofMembers (members.merge changes) =
    .valid new) (given : field.Given changes field.key value) : field.parse value =
      .valid (field.get new) := by
  obtain ⟨listed, inside, only⟩ := given
  have found : (members.merge changes).lookup field.key = some value :=
    Keyed.lookup_merge_of_mem inside (fun entry there same =>
      congrArg Prod.snd (only entry there (same.symm ▸ listed))) members
  rw [← Checked.under_eq_valid_iff, ← read_of_lookup found]
  exact read_of_ofMembers after field

private theorem get_eq_of_lookup {old new : Column} (before : Column.ofMembers members = .valid old)
    (after : Column.ofMembers (members.merge changes) = .valid new)
    (found : members.lookup field.key = some value) (absent : field.key ∉ changes.keys) :
    field.get new = field.get old := by
  have kept := (Keyed.lookup_merge_of_not_mem absent members).trans found
  have same := (read_of_lookup kept).trans (read_of_lookup found).symm
  exact Checked.valid.inj ((read_of_ofMembers after field).symm.trans
    (same.trans (read_of_ofMembers before field)))

private theorem get_eq_of_absent {old new : Column} (before : Column.ofMembers members = .valid old)
    (after : Column.ofMembers (members.merge changes) = .valid new)
    (absent : ∀ spelling ∈ field.spellings, spelling ∉ changes.keys) :
    field.get new = field.get old := by
  have same : field.read (members.merge changes) = field.read members :=
    read_congr fun spelling listed => Keyed.lookup_merge_of_not_mem (absent spelling listed) members
  exact Checked.valid.inj ((read_of_ofMembers after field).symm.trans
    (same.trans (read_of_ofMembers before field)))

private theorem eq_key_of_mem_spellings (listed : spelling ∈ field.spellings)
    (first : spelling ≠ "primary_key") :
    spelling = field.key := by
  cases field with
  | primaryKey => simpa [spellings, first] using listed
  | type | nullable | default | unique | references => exact List.mem_singleton.mp listed

end ColumnField

/-- The first column of a name in the first table of a name. -/
def Schema.column? (schema : Schema) (table column : String) : Option Column :=
  (schema.table? table).bind (·.column? column)

theorem Schema.column?_eq_some {schema : Schema} (split : schema.tables = before ++ table :: after)
    (earlier : ∀ other ∈ before, other.name ≠ table.name)
    (parts : table.columns = front ++ column :: back)
    (first : ∀ other ∈ front, other.name ≠ column.name) :
    schema.column? table.name column.name = some column := by
  have inSchema : schema.table? table.name = some table :=
    List.find?_eq_some_iff_append.mpr ⟨beq_self_eq_true _, before, after, split,
      fun other inside => by
      simpa using earlier other inside⟩
  have inTable : table.column? column.name = some column :=
    List.find?_eq_some_iff_append.mpr ⟨beq_self_eq_true _, front, back, parts,
      fun other inside => by
      simpa using first other inside⟩
  rw [column?, inSchema, Option.bind_some, inTable]

theorem Column.exists_written (column : Column) :
    ∃ members, (column.toJson .omitted).members? = some members ∧
    members.lookup "name" = some (.str column.name) ∧
      members.lookup "primaryKey" = some (.bool column.primaryKey) ∧
      ofMembers members = .valid column := by
  refine ⟨_, rfl, rfl, ?_, column.decode_toJson⟩
  simp [List.lookup_append, Vacant.lookup_member, List.lookup_cons]

/-- Changes that give no other name leave a column its name. -/
theorem Column.name_of_merge {old new : Column} {members changes : Members}
    (named : members.lookup "name" = some (.str old.name))
    (after : ofMembers (members.merge changes) = .valid new)
    (keeps : ∀ value, ("name", value) ∈ changes → value = .str old.name) : new.name = old.name := by
  have kept : (members.merge changes).lookup "name" = some (.str old.name) := by
    by_cases given : "name" ∈ changes.keys
    · obtain ⟨⟨_, value⟩, inside, rfl⟩ := List.mem_map.mp given
      refine Keyed.lookup_merge_of_mem (keeps value inside ▸ inside) ?_ members
      rintro ⟨_, other⟩ there rfl
      exact keeps other there
    · rw [Keyed.lookup_merge_of_not_mem given, named]
  have read := required_string_eq_valid_iff.mp (ofMembers_eq_valid_iff.mp after).1
  exact Json.str.inj (Option.some.inj (read.symm.trans kept))

namespace Schema

variable {schema revised : Schema} {tableName columnName : Json} {changes : Members}

/-- A change of a column puts the changes into the first column of the name in the first table of
the name. -/
theorem exists_changed_column (done : schema.revise [.modifyColumn tableName columnName changes] =
    .ok revised) :
    ∃ table old new, tableName = .str table ∧ columnName = .str old.name ∧
      schema.column? table old.name = some old ∧
      Column.decode (merge (old.toJson .omitted) changes) = .valid new ∧
      (new.name = old.name → revised.column? table old.name = some new) := by
  have about : step (schema.members .omitted) (.modifyColumn tableName columnName changes) =
      onTable (schema.members .omitted) tableName fun row =>
        onColumn row columnName fun items place column =>
        items.set place (merge column changes) := rfl
  obtain ⟨-, before, table, after, split, earlier, rfl, row, newTable, made, valid, result⟩ :=
    (revise_onTable_iff about).mp done
  obtain ⟨front, old, back, parts, first, rfl, rfl⟩ := onColumn_toJson_iff.mp made
  obtain ⟨columns, each, shape⟩ := decode_put_columns_iff.mp valid
  rw [set_map parts, readAs_replace_iff Column.decode_toJson, List.map_id', List.map_id'] at each
  obtain ⟨new, read, rfl⟩ := each
  refine ⟨table.name, old, new, rfl, rfl, column?_eq_some split earlier parts first,
    read, fun same => ?_⟩
  have tables : revised.tables = before.map Table.settled ++
      newTable :: after.map Table.settled := by rw [result]
  have name : newTable.name = table.name := by rw [shape]; rfl
  have columns : newTable.columns = front ++ new :: back := by rw [shape]
  have there :=
    column?_eq_some tables (List.forall_mem_map.mpr (name ▸ earlier)) columns (same ▸ first)
  rwa [name, same] at there

/-- A change of a column takes what it gives. Unless it gives another name, the column is found
again, and each of its fields has the value that was given for it once, under any name of it but the
second one of the key flag; a field that was not given is as it was, and so is the key flag when it
was not given under its first name. -/
theorem revise_modifyColumn (keeps : ∀ value, ("name", value) ∈ changes → value = columnName)
    (done : schema.revise [.modifyColumn tableName columnName changes] = .ok revised) :
    ∃ table column old new, tableName = .str table ∧ columnName = .str column ∧
      schema.column? table column = some old ∧ revised.column? table column = some new ∧
      (∀ (field : ColumnField) (spelling : String) (value : Json),
        field.Given changes spelling value →
        spelling ≠ "primary_key" → field.parse value = .valid (field.get new)) ∧
      (∀ field : ColumnField, (∀ spelling ∈ field.spellings, spelling ∉ changes.keys) →
        field.get new = field.get old) ∧
      ("primaryKey" ∉ changes.keys → new.primaryKey = old.primaryKey) := by
  obtain ⟨table, old, new, rfl, rfl, was, read, found⟩ := exists_changed_column done
  obtain ⟨members, object, named, flagged, before⟩ := old.exists_written
  obtain ⟨_, merged, after⟩ := record_eq_valid_iff.mp read
  rw [members?_merge_of object, Option.some.injEq] at merged
  subst merged
  refine ⟨table, old.name, old, new, rfl, rfl, was,
    found (Column.name_of_merge named after keeps), ?_, ?_, ?_⟩
  · rintro field spelling value given other
    obtain rfl := ColumnField.eq_key_of_mem_spellings given.1 other
    exact ColumnField.parse_of_given after given
  · exact fun field absent => ColumnField.get_eq_of_absent before after absent
  · intro absent
    have flag : ColumnField.primaryKey.get new = ColumnField.primaryKey.get old :=
      ColumnField.get_eq_of_lookup before after flagged absent
    exact flag

/-- Changes that make a code the company of a deal. -/
def codeToCompany : Members := [("type", .str "UUID"), ("name", .str "code"), ("default", .null),
  ("references", .obj [("table", .str "company"), ("on_delete", .str "CASCADE")])]

/-- All that is given of the code is taken, and the rest of it stays. -/
theorem code_to_company : (∀ value, ("name", value) ∈ codeToCompany → value = .str "code") ∧
    ∃ revised, (dealsByCode true).revise [.modifyColumn (.str "deal") (.str "code") codeToCompany] =
      .ok revised ∧
      revised.column? "deal" "code" =
        some ⟨"code", .uuid, true, none, false, true, some ⟨"company", "id", .cascade⟩⟩ := by
  have keeps : ∀ value, ("name", value) ∈ codeToCompany → value = .str "code" := by
    simp [codeToCompany]
  obtain ⟨revised, done⟩ := exists_eq_ok_of_isOk (by decide +kernel :
    ((dealsByCode true).revise [.modifyColumn (.str "deal") (.str "code") codeToCompany]).isOk =
      true)
  obtain ⟨_, _, old, new, ⟨⟩, ⟨⟩, was, now, given, kept, -⟩ := revise_modifyColumn keeps done
  have found : (dealsByCode true).column? "deal" "code" =
      some ⟨"code", .text, true, none, false, true, none⟩ := by decide
  obtain rfl := Option.some.inj (found.symm.trans was)
  have type := given .type "type" (.str "UUID") (by decide +kernel) (by decide)
  have default := given .default "default" .null (by decide +kernel) (by decide)
  have reference := given .references "references"
    (.obj [("table", .str "company"), ("on_delete", .str "CASCADE")])
    (by decide +kernel) (by decide)
  have nullable := kept .nullable (by decide)
  have unique := kept .unique (by decide)
  have flag := kept .primaryKey (by decide)
  have name : new.name = "code" := by
    obtain ⟨_, -, there⟩ := Option.bind_eq_some_iff.mp now
    simpa using List.find?_some there
  have code : new = ⟨"code", .uuid, true, none, false, true, some ⟨"company", "id", .cascade⟩⟩ :=
    ColumnField.eq_of_get name fun
      | .type => (Checked.valid.inj type).symm
      | .nullable => nullable
      | .default => (Checked.valid.inj default).symm
      | .unique => unique
      | .primaryKey => flag
      | .references => (Checked.valid.inj reference).symm
  exact ⟨keeps, revised, done, code ▸ now⟩

/-- A key flag that is given under its second name only is lost. -/
theorem field_not_always_taken : ¬ ∀ (schema revised : Schema) (tableName columnName : Json)
    (changes : Members), (∀ value, ("name", value) ∈ changes → value = columnName) →
    schema.revise [.modifyColumn tableName columnName changes] = .ok revised →
    ∃ table column new, tableName = .str table ∧ columnName = .str column ∧
      revised.column? table column = some new ∧
      ∀ (field : ColumnField) (spelling : String) (value : Json),
        field.Given changes spelling value →
        field.parse value = .valid (field.get new) := by
  intro taken
  -- the code is written out with `primaryKey`, and that spelling is read before the one that was
  -- given
  have kept : (dealsByCode false).revise [keyCode "primary_key"] =
      .ok (dealsByCode false) := by decide +kernel
  obtain ⟨_, _, new, ⟨⟩, ⟨⟩, there, given⟩ := taken _ _ _ _ _ (by simp) kept
  have found : (dealsByCode false).column? "deal" "code" =
      some ⟨"code", .text, true, none, false, false, none⟩ := by decide
  obtain rfl := Option.some.inj (there.symm.trans found)
  have flag := given .primaryKey "primary_key" (.bool true) (by decide +kernel)
  cases flag

end Schema

end Schemata
