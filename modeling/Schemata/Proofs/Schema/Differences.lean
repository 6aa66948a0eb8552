import Mathlib.Data.List.Nodup
import Schemata.Proofs.Rules.Sound
import Schemata.Schema.Diff

/-! Differences between schemas whose names are distinct. Main statement: a difference lists exactly
the tables and columns that only one side has or that are not the same on both, in the order of one
side, and read backwards it is the difference the other way round. -/

namespace Schemata

namespace Keyed

variable {nameOf : α → String} {values : List α}

theorem latest_eq (distinct : (values.map nameOf).Nodup) :
    latest nameOf values = values.map fun value => (nameOf value, value) := by
  refine ofList_eq_self ?_
  rw [List.map_map]
  exact distinct

private theorem keys_latest (distinct : (values.map nameOf).Nodup) :
    (latest nameOf values).keys = values.map nameOf := by
  rw [latest_eq distinct, keys, List.map_map]
  rfl

theorem lookup_latest (distinct : (values.map nameOf).Nodup) (name : String) :
    (latest nameOf values).lookup name = values.find? fun value => nameOf value == name := by
  rw [latest_eq distinct, lookup_map_key values nameOf (fun value => value), Option.map_id']

end Keyed

theorem missingNames_latest {nameOf : α → String} {present absent : List α}
    (distinct : (present.map nameOf).Nodup) (others : (absent.map nameOf).Nodup) :
    missingNames (Keyed.latest nameOf present) (Keyed.latest nameOf absent) =
      (present.map nameOf).filter fun name => name ∉ absent.map nameOf := by
  rw [missingNames, Keyed.keys_latest distinct]
  refine List.filter_congr fun name _ => Bool.eq_iff_iff.mpr ?_
  rw [Option.isNone_iff_eq_none, Keyed.lookup_eq_none_iff, Keyed.keys_latest others,
    decide_eq_true_iff]

private theorem sublist_map_filterMap {values : List α} {make : α → Option β} {nameOf : α → String}
    {shown : β → String} (named : ∀ value made, make value = some made →
      shown made = nameOf value) :
    ((values.filterMap make).map shown).Sublist (values.map nameOf) := by
  induction values with
  | nil => exact .slnil
  | cons value rest ih =>
    cases found : make value with
    | none =>
      rw [List.filterMap_cons_none found]
      exact ih.cons _
    | some made =>
      rw [List.filterMap_cons_some found, List.map_cons, List.map_cons, named value made found]
      exact ih.cons_cons _

/-! ### Tables -/

/-- Two tables have the same columns, in whatever order. -/
def Table.SameColumns (table other : Table) : Prop := ∀ column, column ∈ table.columns ↔
    column ∈ other.columns

theorem Table.SameColumns.symm {table other : Table} (same : table.SameColumns other) :
    other.SameColumns table :=
  fun column => (same column).symm

theorem Table.sameColumns_iff {table other : Table} (distinct : table.columnNames.Nodup)
    (also : other.columnNames.Nodup) : table.SameColumns other ↔
      ∀ name, table.column? name = other.column? name := by
  constructor
  · intro same name
    refine Option.ext fun column => ?_
    rw [column?_eq_some_iff distinct, column?_eq_some_iff also, same column]
  · intro same column
    have found : table.column? column.name = some column ↔
        column ∈ table.columns ∧ column.name = column.name :=
      column?_eq_some_iff distinct
    rw [same column.name, column?_eq_some_iff also] at found
    simpa using found.symm

namespace TableChange

variable {old new : Table}

/-- A change names exactly the columns that one table has and the other has not, and those that are
not the same in both. -/
structure Exact (old new : Table) (change : TableChange) : Prop where
  table : change.table = new.name
  added : change.added = new.columnNames.filter fun name => name ∉ old.columnNames
  removed : change.removed = old.columnNames.filter fun name => name ∉ new.columnNames
  changed : change.changed =
    new.columnNames.filter fun name => name ∈ old.columnNames ∧ old.column? name ≠ new.column? name
  once : change.added.Nodup ∧ change.removed.Nodup ∧ change.changed.Nodup

/-- The same change seen from the other side. -/
structure Reverses (change back : TableChange) : Prop where
  table : back.table = change.table
  added : back.added = change.removed
  removed : back.removed = change.added
  changed : ∀ name, name ∈ back.changed ↔ name ∈ change.changed

theorem Exact.unique {change other : TableChange} (exact : change.Exact old new)
    (also : other.Exact old new) :
    change = other := by
  obtain ⟨table, added, removed, changed⟩ := change
  obtain ⟨table', added', removed', changed'⟩ := other
  rw [mk.injEq]
  exact ⟨exact.table.trans also.table.symm, exact.added.trans also.added.symm,
    exact.removed.trans also.removed.symm, exact.changed.trans also.changed.symm⟩

theorem Exact.reverses {change back : TableChange} (exact : change.Exact old new)
    (there : back.Exact new old) (same : old.name = new.name) : change.Reverses back where
  table := there.table.trans (same.trans exact.table.symm)
  added := there.added.trans exact.removed.symm
  removed := there.removed.trans exact.added.symm
  changed name := by
    rw [there.changed, exact.changed, List.mem_filter, List.mem_filter, decide_eq_true_iff,
      decide_eq_true_iff, ne_comm]
    exact and_left_comm

theorem added_eq (distinct : old.columnNames.Nodup) (also : new.columnNames.Nodup) :
    (between old new).added = new.columnNames.filter fun name => name ∉ old.columnNames :=
  missingNames_latest also distinct

theorem removed_eq (distinct : old.columnNames.Nodup) (also : new.columnNames.Nodup) :
    (between old new).removed = old.columnNames.filter fun name => name ∉ new.columnNames :=
  missingNames_latest distinct also

theorem changed_eq (distinct : old.columnNames.Nodup) (also : new.columnNames.Nodup) :
    (between old new).changed =
      new.columnNames.filter fun name => name ∈ old.columnNames ∧
        old.column? name ≠ new.column? name := by
  simp only [between, Keyed.latest_eq also, Keyed.lookup_latest distinct,
    List.filter_map, List.map_map]
  have names : new.columnNames = new.columns.map (·.name) := rfl
  rw [names, List.filter_map]
  refine congrArg (List.map Column.name) (List.filter_congr fun column member => ?_)
  have here : new.column? column.name = some column :=
    (Table.column?_eq_some_iff also).mpr ⟨member, rfl⟩
  simp only [Function.comp_apply, here, ← Table.column?_isSome_iff]
  rw [Table.column?]
  cases old.columns.find? fun earlier =>
    earlier.name == column.name <;> simp [bne, Bool.beq_eq_decide_eq]

theorem between_exact (distinct : old.columnNames.Nodup) (also : new.columnNames.Nodup) :
    (between old new).Exact old new where
  table := rfl
  added := added_eq distinct also
  removed := removed_eq distinct also
  changed := changed_eq distinct also
  once := by
    rw [added_eq distinct also, removed_eq distinct also, changed_eq distinct also]
    exact ⟨also.filter _, distinct.filter _, also.filter _⟩

theorem isEmpty_iff (distinct : old.columnNames.Nodup) (also : new.columnNames.Nodup) :
    (between old new).isEmpty = true ↔ old.SameColumns new := by
  rw [isEmpty, Bool.and_eq_true, Bool.and_eq_true, List.isEmpty_iff, List.isEmpty_iff,
    List.isEmpty_iff, added_eq distinct also, removed_eq distinct also, changed_eq distinct also,
    Table.sameColumns_iff distinct also]
  simp only [List.filter_eq_nil_iff, decide_eq_true_eq, not_not, not_and]
  constructor
  · rintro ⟨⟨known, kept⟩, same⟩ name
    by_cases listed : name ∈ new.columnNames
    · exact same name listed (known name listed)
    · have absent : name ∉ old.columnNames := fun before => listed (kept name before)
      rw [← Table.column?_isSome_iff, Bool.not_eq_true, Option.isSome_eq_false_iff,
        Option.isNone_iff_eq_none]
        at listed absent
      rw [listed, absent]
  · intro same
    have listed : ∀ name, name ∈ old.columnNames ↔ name ∈ new.columnNames := fun name => by
      rw [← Table.column?_isSome_iff, ← Table.column?_isSome_iff, same name]
    exact ⟨⟨fun name => (listed name).mpr, fun name => (listed name).mp⟩, fun name _ _ => same name⟩

end TableChange

/-! ### Schemas -/

/-- Tables have names of their own, and so have the columns of each table. -/
structure Schema.Distinct (schema : Schema) : Prop where
  tables : schema.tableNames.Nodup
  columns : ∀ table ∈ schema.tables, table.columnNames.Nodup

namespace SchemaDiff

variable {old new : Schema}

/-- A difference names exactly the tables that one schema has and the other has not, and says of
those that do not have the same columns in both how they changed. It is empty when there is none of
these. -/
structure Exact (old new : Schema) (diff : SchemaDiff) : Prop where
  empty : diff.isEmpty = true ↔ (∀ name, name ∈ old.tableNames ↔ name ∈ new.tableNames) ∧
    ∀ table ∈ old.tables, ∀ other ∈ new.tables, table.name = other.name → table.SameColumns other
  added : diff.added = new.tableNames.filter fun name => name ∉ old.tableNames
  removed : diff.removed = old.tableNames.filter fun name => name ∉ new.tableNames
  modified : ∀ change, change ∈ diff.modified ↔ ∃ table ∈ old.tables, ∃ other ∈ new.tables,
    table.name = other.name ∧ ¬ table.SameColumns other ∧ change.Exact table other
  ordered : (diff.modified.map (·.table)).Sublist new.tableNames
  once : diff.added.Nodup ∧ diff.removed.Nodup ∧ (diff.modified.map (·.table)).Nodup

/-- The same difference seen from the other side. -/
structure Reverses (diff back : SchemaDiff) : Prop where
  added : back.added = diff.removed
  removed : back.removed = diff.added
  modified : ∀ name, name ∈ back.modified.map (·.table) ↔ name ∈ diff.modified.map (·.table)
  columns : ∀ change ∈ diff.modified, ∀ other ∈ back.modified, change.table = other.table →
    change.Reverses other

theorem added_eq (distinct : old.Distinct) (also : new.Distinct) :
    (between old new).added = new.tableNames.filter fun name => name ∉ old.tableNames :=
  missingNames_latest also.tables distinct.tables

theorem removed_eq (distinct : old.Distinct) (also : new.Distinct) :
    (between old new).removed = old.tableNames.filter fun name => name ∉ new.tableNames :=
  missingNames_latest distinct.tables also.tables

theorem modified_eq (distinct : old.Distinct) (also : new.Distinct) :
    (between old new).modified = new.tables.filterMap fun table =>
      ((old.table? table.name).filter fun earlier =>
        !(TableChange.between earlier table).isEmpty).map fun earlier =>
        TableChange.between earlier table := by
  simp only [between, Keyed.latest_eq also.tables, Keyed.lookup_latest distinct.tables,
    List.filterMap_map]
  refine congrArg (List.filterMap · new.tables) (funext fun table => ?_)
  rw [Function.comp_apply, Schema.table?]
  cases old.tables.find? fun earlier => earlier.name == table.name with
  | none => rfl
  | some earlier =>
    cases empty : (TableChange.between earlier table).isEmpty <;> simp [Option.filter, empty]

theorem mem_modified_iff (distinct : old.Distinct) (also : new.Distinct) {change : TableChange} :
    change ∈ (between old new).modified ↔ ∃ table ∈ old.tables, ∃ other ∈ new.tables,
      table.name = other.name ∧ ¬ table.SameColumns other ∧ change.Exact table other := by
  have found {table other : Table} :
      old.table? other.name = some table ↔ table ∈ old.tables ∧ table.name = other.name :=
    Keyed.find?_eq_some_iff distinct.tables
  rw [modified_eq distinct also, List.mem_filterMap]
  constructor
  · rintro ⟨other, listed, made⟩
    obtain ⟨table, kept, rfl⟩ := Option.map_eq_some_iff.mp made
    obtain ⟨known, differs⟩ := Option.filter_eq_some_iff.mp kept
    obtain ⟨member, same⟩ := found.mp known
    have before := distinct.columns table member
    have after := also.columns other listed
    refine ⟨table, member, other, listed, same, ?_, TableChange.between_exact before after⟩
    rw [← TableChange.isEmpty_iff before after]
    simpa using differs
  · rintro ⟨table, member, other, listed, same, differs, exact⟩
    have before := distinct.columns table member
    have after := also.columns other listed
    rw [← TableChange.isEmpty_iff before after] at differs
    refine ⟨other, listed, Option.map_eq_some_iff.mpr ⟨table,
      Option.filter_eq_some_iff.mpr ⟨?_, ?_⟩, ?_⟩⟩
    · exact found.mpr ⟨member, same⟩
    · simpa using differs
    · exact (TableChange.between_exact before after).unique exact

private theorem sublist_modified (distinct : old.Distinct) (also : new.Distinct) :
    ((between old new).modified.map (·.table)).Sublist new.tableNames := by
  rw [modified_eq distinct also]
  refine sublist_map_filterMap fun table change made => ?_
  obtain ⟨earlier, -, rfl⟩ := Option.map_eq_some_iff.mp made
  rfl

theorem isEmpty_iff (distinct : old.Distinct) (also : new.Distinct) :
    (between old new).isEmpty = true ↔
    (∀ name, name ∈ old.tableNames ↔ name ∈ new.tableNames) ∧
      ∀ table ∈ old.tables, ∀ other ∈ new.tables, table.name = other.name →
        table.SameColumns other := by
  rw [isEmpty, Bool.and_eq_true, Bool.and_eq_true, List.isEmpty_iff, List.isEmpty_iff,
    List.isEmpty_iff, added_eq distinct also, removed_eq distinct also,
    List.eq_nil_iff_forall_not_mem (l := modified _)]
  simp only [List.filter_eq_nil_iff, decide_eq_true_eq, not_not, mem_modified_iff distinct also]
  constructor
  · rintro ⟨⟨known, kept⟩, unchanged⟩
    refine ⟨fun name => ⟨kept name, known name⟩, fun table member other listed same => ?_⟩
    by_contra differs
    have exact :=
      TableChange.between_exact (distinct.columns table member) (also.columns other listed)
    exact unchanged _ ⟨table, member, other, listed, same, differs, exact⟩
  · rintro ⟨names, columns⟩
    refine ⟨⟨fun name => (names name).mpr, fun name => (names name).mp⟩, ?_⟩
    rintro change ⟨table, member, other, listed, same, differs, -⟩
    exact differs (columns table member other listed same)

theorem between_exact (distinct : old.Distinct) (also : new.Distinct) :
    (between old new).Exact old new where
  empty := isEmpty_iff distinct also
  added := added_eq distinct also
  removed := removed_eq distinct also
  modified _ := mem_modified_iff distinct also
  ordered := sublist_modified distinct also
  once := by
    rw [added_eq distinct also, removed_eq distinct also]
    exact ⟨also.tables.filter _, distinct.tables.filter _,
      also.tables.sublist (sublist_modified distinct also)⟩

/-- A change of one direction has its counterpart in the other. -/
theorem Exact.exists_reverse {diff back : SchemaDiff} (exact : diff.Exact old new)
    (there : back.Exact new old) (distinct : old.Distinct) (also : new.Distinct)
    (listed : change ∈ diff.modified) :
    ∃ other ∈ back.modified, other.table = change.table := by
  obtain ⟨table, member, other, present, same, differs, exact⟩ := (exact.modified change).mp listed
  have reverse :=
    TableChange.between_exact (also.columns other present) (distinct.columns table member)
  have differs' : ¬ other.SameColumns table := fun alike => differs alike.symm
  refine ⟨_, (there.modified _).mpr ⟨other, present, table, member, same.symm, differs', reverse⟩,
    ?_⟩
  rw [exact.table]
  exact same

theorem Exact.reverses {diff back : SchemaDiff} (exact : diff.Exact old new)
    (there : back.Exact new old) (distinct : old.Distinct) (also : new.Distinct) :
    diff.Reverses back where
  added := there.added.trans exact.removed.symm
  removed := there.removed.trans exact.added.symm
  modified name := by
    simp only [List.mem_map]
    constructor
    · rintro ⟨change, listed, rfl⟩
      exact there.exists_reverse exact also distinct listed
    · rintro ⟨change, listed, rfl⟩
      exact exact.exists_reverse there distinct also listed
  columns change listed other present same := by
    obtain ⟨before, member, after, inside, alike, -, exact⟩ := (exact.modified change).mp listed
    obtain ⟨after', inside', before', member', alike', -, there⟩ :=
      (there.modified other).mp present
    have names : before'.name = after.name := there.table.symm.trans (same.symm.trans exact.table)
    -- The name of a table decides which one it is, so both changes are of the same two tables.
    obtain rfl := List.inj_on_of_nodup_map distinct.tables member member' (alike.trans names.symm)
    obtain rfl := List.inj_on_of_nodup_map also.tables inside inside' (names.symm.trans alike'.symm)
    exact exact.reverses there alike

/-- A difference is exact, and the difference the other way round is the same one read backwards. -/
theorem between_reversible (distinct : old.Distinct) (also : new.Distinct) :
    (between old new).Exact old new ∧ (between old new).Reverses (between new old) := by
  have exact := between_exact distinct also
  exact ⟨exact, exact.reverses (between_exact also distinct) distinct also⟩

end SchemaDiff

/-- Deals with an amount, whose company has become optional and whose companies have given way to
contacts. -/
def Schema.dealsOfContacts : Schema where
  version := "2.0.0"
  tables := [
    { name := "contact"
      columns := auditColumns ++ [⟨"email", .text, false, none, true, false, none⟩]
      indexes := []
      hints := .none },
    { name := "deal"
      columns := auditColumns ++
        [⟨"amount", .text, true, none, false, false, none⟩,
          ⟨"company_id", .uuid, true, none, false, false, none⟩]
      indexes := []
      hints := .none }]
  relationships := []

theorem SchemaDiff.between_deals : Schema.deals.Distinct ∧ Schema.dealsOfContacts.Distinct ∧
    between .deals .dealsOfContacts = ⟨["contact"], ["company"],
      [⟨"deal", ["amount"], [], ["company_id"]⟩]⟩ ∧
      (between .deals .dealsOfContacts).Exact .deals .dealsOfContacts ∧
      (between .deals .dealsOfContacts).Reverses (between .dealsOfContacts .deals) := by
  have distinct : Schema.deals.Distinct := ⟨by decide, by decide⟩
  have also : Schema.dealsOfContacts.Distinct := ⟨by decide, by decide⟩
  exact ⟨distinct, also, by decide, between_reversible distinct also⟩

end Schemata
