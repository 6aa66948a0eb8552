import Mathlib.Data.List.Flatten
import Mathlib.Data.List.Forall2
import Schemata.Proofs.Rules.Sound

/-! Parts of a schema. What is left of a sound schema, tables with their audit columns and indexes,
is sound again as soon as nothing in it points at what is gone. -/

namespace Schemata

/-- What is left of a table: columns of it, all audit columns among them, and its indexes. -/
structure Table.PartOf (part whole : Table) : Prop where
  name : part.name = whole.name
  columns : part.columns.Sublist whole.columns
  audit : ∀ column ∈ whole.columns, column.name ∈ auditNames → column ∈ part.columns
  indexes : part.indexes = whole.indexes

/-- What is left of a schema: its version and what is left of some of its tables, in their order. -/
structure Schema.PartOf (part whole : Schema) : Prop where
  version : part.version = whole.version
  tables : List.SublistForall₂ Table.PartOf part.tables whole.tables

namespace Table.PartOf

variable {part whole : Table}

theorem refl (table : Table) : table.PartOf table :=
  ⟨rfl, .refl _, fun _ member _ => member, rfl⟩

theorem columnNames (left : part.PartOf whole) : part.columnNames.Sublist whole.columnNames :=
  left.columns.map _

theorem indexNames (left : part.PartOf whole) : part.indexNames = whole.indexNames := by
  rw [Table.indexNames, Table.indexNames, left.indexes]

private theorem namesFit (left : part.PartOf whole) (fits : whole.NamesFit limits) :
    part.NamesFit limits where
  self := left.name ▸ fits.self
  columns name listed := fits.columns name (left.columnNames.subset listed)
  indexes := left.indexNames ▸ fits.indexes
  distinct := fits.distinct.sublist left.columnNames

private theorem audited (left : part.PartOf whole) (audited : whole.Audited) : part.Audited := by
  have stays {name : String} {form : Column → Prop} (canonical : name ∈ auditNames)
      (there : ∃ column ∈ whole.columns, column.name = name ∧ form column) :
      ∃ column ∈ part.columns, column.name = name ∧ form column := by
    obtain ⟨column, member, rfl, formed⟩ := there
    exact ⟨column, left.audit column member canonical, rfl, formed⟩
  exact ⟨stays (by decide) audited.id, stays (by decide) audited.user,
    stays (by decide) audited.created, stays (by decide) audited.updated, fun column member =>
    audited.primary column (left.columns.subset member)⟩

end Table.PartOf

namespace Schema

variable {part whole : Schema}

namespace PartOf

theorem exists_whole (left : part.PartOf whole) (member : table ∈ part.tables) :
    ∃ origin ∈ whole.tables, table.PartOf origin := by
  obtain ⟨kept, each, among⟩ := List.sublistForall₂_iff.mp left.tables
  obtain ⟨place, inside, rfl⟩ := List.mem_iff_getElem.mp member
  have origin : place < kept.length := each.length_eq ▸ inside
  exact ⟨kept[place], among.subset (List.getElem_mem origin), each.get inside origin⟩

theorem map_sublist (left : part.PartOf whole) {look : Table → α}
    (same : ∀ table origin : Table, table.PartOf origin → look table = look origin) :
    (part.tables.map look).Sublist (whole.tables.map look) := by
  obtain ⟨kept, each, among⟩ := List.sublistForall₂_iff.mp left.tables
  have equal : List.Forall₂ (· = ·) (part.tables.map look) (kept.map look) :=
    List.forall₂_map_left_iff.mpr (List.forall₂_map_right_iff.mpr (each.imp same))
  rw [List.forall₂_eq_eq_eq] at equal
  exact equal ▸ among.map look

theorem tableNames (left : part.PartOf whole) : part.tableNames.Sublist whole.tableNames :=
  left.map_sublist fun _ _ table => table.name

theorem indexNames (left : part.PartOf whole) :
    (part.tables.flatMap Table.indexNames).Sublist (whole.tables.flatMap Table.indexNames) :=
  (left.map_sublist fun _ _ table => table.indexNames).flatten

private theorem refers (left : part.PartOf whole) (refers : part.Refers name target) :
    whole.Refers name target := by
  obtain ⟨listed, table, member, rfl, column, inside, ref, found, rfl⟩ := refers
  obtain ⟨origin, there, share⟩ := left.exists_whole member
  exact ⟨left.tableNames.subset listed, origin, there, share.name.symm, column,
    share.columns.subset inside, ref, found, rfl⟩

end PartOf

/-- What is left of a sound schema is sound when no foreign key, relationship or index of it points
at what is gone. -/
theorem Sound.of_partOf (sound : whole.Sound limits) (left : part.PartOf whole)
    (some : part.tables ≠ []) (linked : part.Linked)
    (indexed : ∀ table ∈ part.tables, table.Indexed) : part.Sound limits where
  version := left.version ▸ sound.version
  tableCount := by
    have fewer := left.tableNames.length_le
    rw [Schema.tableNames, Schema.tableNames, List.length_map, List.length_map] at fewer
    have within := sound.tableCount.2
    exact ⟨List.length_pos_iff.mpr some, by omega⟩
  columnCount table member := by
    obtain ⟨origin, there, share⟩ := left.exists_whole member
    have fewer := share.columns.length_le
    have within := (sound.columnCount origin there).2
    obtain ⟨column, inside, -⟩ := (share.audited (sound.audited origin there)).id
    exact ⟨List.length_pos_of_mem inside, by omega⟩
  names table member := by
    obtain ⟨origin, there, share⟩ := left.exists_whole member
    exact share.namesFit (sound.names origin there)
  tableNames := sound.tableNames.sublist left.tableNames
  indexNames := sound.indexNames.sublist left.indexNames
  unreserved table member := by
    obtain ⟨origin, there, share⟩ := left.exists_whole member
    obtain ⟨self, columns⟩ := sound.unreserved origin there
    exact ⟨share.name ▸ self, fun name listed => columns name (share.columnNames.subset listed)⟩
  audited table member := by
    obtain ⟨origin, there, share⟩ := left.exists_whole member
    exact share.audited (sound.audited origin there)
  linked := linked
  indexed := indexed
  acyclic := sound.acyclic.mono left.refers
  -- a walk between tables that are left was there before
  shallow name listed steps goal walk :=
    sound.shallow name (left.tableNames.subset listed) steps goal (walk.mono left.refers)
  defaults table member column inside := by
    obtain ⟨origin, there, share⟩ := left.exists_whole member
    exact sound.defaults origin there column (share.columns.subset inside)

end Schema

end Schemata
