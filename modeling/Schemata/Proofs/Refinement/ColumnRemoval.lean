import Schemata.Proofs.Refinement.Forms
import Schemata.Proofs.Rules.Parts

/-! Columns that are deleted. A column goes alone: what is left passes the rules exactly when no
index of its table and no relationship names it. -/

namespace Schemata

open Edit

variable {schema : Schema} {limits : Limits} {table : Table} {name target column : String}

/-- A table without the columns of a name, where it is the table that is meant. -/
def Table.withoutColumn (name column : String) (table : Table) : Table :=
  { table with columns := table.columns.filter fun other =>
    ¬ (table.name = name ∧ other.name = column) }

/-- A schema without the columns of a name in the tables of a name. -/
def Schema.withoutColumn (schema : Schema) (name column : String) : Schema :=
  { schema with tables := schema.tables.map (·.withoutColumn name column) }

/-- An index of the table or a relationship names the column. -/
def Schema.Mentions (schema : Schema) (name column : String) : Prop :=
  (∃ table ∈ schema.tables, table.name = name ∧ ∃ index ∈ table.indexes, column ∈ index.columns) ∨
    ∃ r ∈ schema.relationships, (r.fromTable = name ∧ r.fromColumn = column) ∨
      (r.toTable = name ∧ r.toColumn = column)

namespace Table

theorem mem_columnNames_withoutColumn_iff : other ∈ (table.withoutColumn name column).columnNames ↔
    other ∈ table.columnNames ∧ ¬ (table.name = name ∧ other = column) := by
  simp only [columnNames, withoutColumn, List.mem_map, List.mem_filter, decide_eq_true_eq]
  constructor
  · rintro ⟨key, ⟨inside, apart⟩, rfl⟩
    exact ⟨⟨key, inside, rfl⟩, apart⟩
  · rintro ⟨⟨key, inside, rfl⟩, apart⟩
    exact ⟨key, ⟨inside, apart⟩, rfl⟩

private theorem withoutColumn_of_name_ne (apart : table.name ≠ name) :
    table.withoutColumn name column = table := by
  have all : (table.columns.filter fun other => ¬ (table.name = name ∧ other.name = column)) =
      table.columns :=
    List.filter_eq_self.mpr fun other _ => decide_eq_true fun same => apart same.1
  rw [withoutColumn, all]

private theorem columns_withoutColumn (parts : table.columns = front ++ key :: back)
    (first : ∀ other ∈ front, other.name ≠ key.name)
    (last : ∀ other ∈ back, other.name ≠ key.name) :
    (table.withoutColumn table.name key.name).columns = front ++ back := by
  have kept {columns : List Column} (apart : ∀ other ∈ columns, other.name ≠ key.name) :
      (columns.filter fun other => ¬ (table.name = table.name ∧ other.name = key.name)) = columns :=
    List.filter_eq_self.mpr fun other inside => decide_eq_true fun same => apart other inside same.2
  rw [withoutColumn, parts, List.filter_append, List.filter_cons, kept first, kept last]
  simp

theorem withoutColumn_partOf (business : column ∉ auditNames) :
    (table.withoutColumn name column).PartOf table where
  name := rfl
  columns := List.filter_sublist
  audit _ inside canonical := List.mem_filter.mpr
    ⟨inside, decide_eq_true fun same => business (same.2 ▸ canonical)⟩
  indexes := rfl

end Table

namespace Schema

theorem withoutColumn_partOf (business : column ∉ auditNames) :
    (schema.withoutColumn name column).PartOf schema where
  version := rfl
  tables := List.sublistForall₂_iff.mpr ⟨_, List.forall₂_map_left_iff.mpr
    (List.forall₂_same.mpr fun _ _ => Table.withoutColumn_partOf business), .refl _⟩

theorem hasColumn_withoutColumn_iff : (schema.withoutColumn name column).HasColumn target other ↔
    schema.HasColumn target other ∧ ¬ (target = name ∧ other = column) := by
  constructor
  · rintro ⟨_, member, named, listed⟩
    obtain ⟨table, there, rfl⟩ := List.mem_map.mp member
    obtain ⟨listed, apart⟩ := Table.mem_columnNames_withoutColumn_iff.mp listed
    exact ⟨⟨table, there, named, listed⟩, named ▸ apart⟩
  · rintro ⟨⟨table, there, rfl, listed⟩, apart⟩
    exact ⟨_, List.mem_map_of_mem there, rfl,
      Table.mem_columnNames_withoutColumn_iff.mpr ⟨listed, apart⟩⟩

/-- Without a column that no foreign key points at, a sound schema is sound exactly when nothing
else names it. -/
theorem Sound.withoutColumn_iff (sound : schema.Sound limits) (business : column ∉ auditNames)
    (free : ∀ table ∈ schema.tables, ∀ key ∈ table.columns, ∀ ref, key.reference? = some ref →
      ¬ (ref.table = name ∧ ref.column = column)) :
    (schema.withoutColumn name column).Sound limits ↔ ¬ schema.Mentions name column := by
  constructor
  · rintro left (⟨table, member, rfl, index, inside, listed⟩ | ⟨r, member, here | here⟩)
    · have indexed := left.indexed _ (List.mem_map_of_mem member) index inside
      exact (Table.mem_columnNames_withoutColumn_iff.mp (indexed.2 column listed)).2 ⟨rfl, rfl⟩
    · exact (hasColumn_withoutColumn_iff.mp (left.linked.starts r member)).2 here
    · exact (hasColumn_withoutColumn_iff.mp (left.linked.targets r member)).2 here
  · intro silent
    have some : (schema.withoutColumn name column).tables ≠ [] := by
      rw [← List.length_pos_iff, Schema.withoutColumn, List.length_map]
      exact sound.tableCount.1
    -- foreign keys, both ends of relationships, and indexes: none names the column that goes
    refine sound.of_partOf (withoutColumn_partOf business) some ⟨?_, ?_, ?_⟩ ?_
    · intro table member key inside ref found
      obtain ⟨origin, there, share⟩ := (withoutColumn_partOf business).exists_whole member
      have inside := share.columns.subset inside
      exact hasColumn_withoutColumn_iff.mpr
        ⟨sound.linked.foreignKeys origin there key inside ref found,
          free origin there key inside ref found⟩
    · exact fun r member => hasColumn_withoutColumn_iff.mpr
        ⟨sound.linked.starts r member, fun here => silent (.inr ⟨r, member, .inl here⟩)⟩
    · exact fun r member => hasColumn_withoutColumn_iff.mpr
        ⟨sound.linked.targets r member, fun here => silent (.inr ⟨r, member, .inr here⟩)⟩
    · intro _ member index inside
      obtain ⟨table, there, rfl⟩ := List.mem_map.mp member
      obtain ⟨some, listed⟩ := sound.indexed table there index inside
      refine ⟨some, fun other within =>
        Table.mem_columnNames_withoutColumn_iff.mpr ⟨listed other within, ?_⟩⟩
      rintro ⟨here, rfl⟩
      exact silent (.inl ⟨table, there, here, index, inside, within⟩)

private theorem tables_withoutColumn (split : schema.tables = before ++ table :: after)
    (earlier : ∀ other ∈ before, other.name ≠ table.name)
    (later : ∀ other ∈ after, other.name ≠ table.name) (column : String) :
    (schema.withoutColumn table.name column).tables =
      before ++ table.withoutColumn table.name column :: after := by
  have same {tables : List Table} (apart : ∀ other ∈ tables, other.name ≠ table.name) :
      tables.map (·.withoutColumn table.name column) = tables :=
    (List.map_congr_left fun other inside => Table.withoutColumn_of_name_ne
      (apart other inside)).trans
      (List.map_id' tables)
  rw [Schema.withoutColumn, split, List.map_append, List.map_cons, same earlier, same later]

/-- The change that deletes a column makes the schema without that column. -/
theorem revise_withoutColumn (writable : schema.isWritable = true)
    (distinct : schema.tableNames.Nodup) (member : table ∈ schema.tables)
    (apart : table.columnNames.Nodup) (listed : column ∈ table.columnNames) :
    schema.revise [.deleteColumn (.str table.name) (.str column)] =
      .ok (schema.withoutColumn table.name column).settled := by
  obtain ⟨before, after, split, earlier, later⟩ := Keyed.exists_split distinct member
  obtain ⟨key, inside, rfl⟩ := List.mem_map.mp listed
  obtain ⟨front, back, parts, first, last⟩ := Keyed.exists_split apart inside
  have rows : (table.columns.map (Column.toJson .omitted)).eraseIdx front.length =
      (front ++ back).map (Column.toJson .omitted) := by
    simp [parts, List.eraseIdx_append_of_length_le]
  have result : (schema.withoutColumn table.name key.name).settled =
      ⟨schema.version, before.map Table.settled ++
      { table.settled with columns := front ++ back } :: after.map Table.settled,
        schema.relationships⟩ := by
    rw [settled, tables_withoutColumn split earlier later, List.map_append, List.map_cons,
      ← Table.columns_withoutColumn parts first last]
    rfl
  have about : step (schema.members .omitted) (.deleteColumn (.str table.name) (.str key.name)) =
      onTable (schema.members .omitted) (.str table.name) fun row =>
        onColumn row (.str key.name) fun items place _ => items.eraseIdx place := rfl
  rw [result]
  refine (revise_onTable_iff about).mpr ⟨writable, before, table, after, split, earlier, rfl, _, _,
    onColumn_toJson_iff.mpr ⟨front, key, back, parts, first, rfl, rfl⟩,
    decode_put_columns_iff.mpr ⟨front ++ back, ?_, rfl⟩, rfl⟩
  rw [rows, readAs_map_iff Column.decode_toJson, List.map_id']

/-- A column that is no audit column and that no foreign key points at can be deleted from an
accepted schema. The column alone goes, and hints of other names that are `null`; what is left is
accepted unless an index of the table or a relationship names the column. -/
theorem revise_deleteColumn (passed : (validate (.schema schema) limits).passed = true)
    (writable : schema.isWritable = true) (member : table ∈ schema.tables)
    (listed : column ∈ table.columnNames) (business : column ∉ auditNames)
    (free : ∀ other ∈ schema.tables, ∀ key ∈ other.columns, ∀ ref, key.reference? = some ref →
      ¬ (ref.table = table.name ∧ ref.column = column)) :
    ∃ revised, schema.revise [.deleteColumn (.str table.name) (.str column)] = .ok revised ∧
      revised = (schema.withoutColumn table.name column).settled ∧
      ((validate (.schema revised) limits).passed = true ↔
        ¬ schema.Mentions table.name column) := by
  have sound := (schema.passes_iff limits).mp passed
  refine ⟨_, revise_withoutColumn writable sound.tableNames member
    (sound.names table member).distinct listed, rfl, ?_⟩
  have judged :
      (validate (.schema (schema.withoutColumn table.name column).settled) limits).passed =
      (schema.withoutColumn table.name column).passes limits := passes_settled _ limits
  rw [judged, passes_iff, sound.withoutColumn_iff business free]

instance (schema : Schema) (name column : String) : Decidable (schema.Mentions name column) :=
  inferInstanceAs (Decidable (_ ∨ _))

/-- The title of companies can be deleted. Without the company of deals their index and their
relationship point at nothing. -/
theorem deals_columns_deleted : (validate (.schema deals) .standard).passed = true ∧
    deals.isWritable = true ∧
    (∀ other ∈ deals.tables, ∀ key ∈ other.columns, ∀ ref, key.reference? = some ref →
      ¬ (ref.table = "company" ∧ ref.column = "title") ∧
        ¬ (ref.table = "deal" ∧ ref.column = "company_id")) ∧
    (∃ revised, deals.revise [.deleteColumn (.str "company") (.str "title")] = .ok revised ∧
      (validate (.schema revised) .standard).passed = true) ∧
    ∃ revised, deals.revise [.deleteColumn (.str "deal") (.str "company_id")] = .ok revised ∧
      (validate (.schema revised) .standard).passed = false := by
  have writable : deals.isWritable = true := by decide
  have free : ∀ other ∈ deals.tables, ∀ key ∈ other.columns, ∀ ref ∈ key.reference?,
      ¬ (ref.table = "company" ∧ ref.column = "title") ∧
        ¬ (ref.table = "deal" ∧ ref.column = "company_id") := by
    decide
  refine ⟨deals_passed, writable, free, ?_, ?_⟩
  · have member : deals.tables[1] ∈ deals.tables := List.getElem_mem _
    obtain ⟨revised, done, -, accepted⟩ := revise_deleteColumn deals_passed writable member
      (by decide) (by decide : "title" ∉ auditNames) fun other there key inside ref found =>
        (free other there key inside ref found).1
    exact ⟨revised, done, accepted.mpr (by decide)⟩
  · have member : deals.tables[0] ∈ deals.tables := List.getElem_mem _
    obtain ⟨revised, done, -, accepted⟩ := revise_deleteColumn deals_passed writable member
      (by decide) (by decide : "company_id" ∉ auditNames) fun other there key inside ref found =>
        (free other there key inside ref found).2
    refine ⟨revised, done, Bool.eq_false_iff.mpr fun passed => accepted.mp passed (by decide)⟩

/-- What is left without a column that no foreign key points at is not always accepted. -/
theorem column_deletion_not_always_accepted :
    ¬ ∀ (schema : Schema) (limits : Limits) (table : Table) (column : String),
    (validate (.schema schema) limits).passed = true → table ∈ schema.tables →
      column ∈ table.columnNames →
    column ∉ auditNames →
    (∀ other ∈ schema.tables, ∀ key ∈ other.columns, ∀ ref, key.reference? = some ref →
      ¬ (ref.table = table.name ∧ ref.column = column)) →
    ∃ revised, schema.revise [.deleteColumn (.str table.name) (.str column)] = .ok revised ∧
      (validate (.schema revised) limits).passed = true := by
  intro deleted
  have free : ∀ other ∈ deals.tables, ∀ key ∈ other.columns, ∀ ref ∈ key.reference?,
      ¬ (ref.table = "deal" ∧ ref.column = "company_id") := by decide
  have member : deals.tables[0] ∈ deals.tables := List.getElem_mem _
  have sound := (deals.passes_iff .standard).mp deals_passed
  obtain ⟨revised, done, accepted⟩ := deleted deals .standard deals.tables[0] "company_id"
    deals_passed member
    (by decide) (by decide) free
  rw [revise_withoutColumn (by decide) sound.tableNames member (sound.names _ member).distinct
    (by decide)] at done
  obtain rfl := Except.ok.inj done
  have passes : (deals.withoutColumn "deal" "company_id").settled.passes .standard =
      true := accepted
  rw [passes_settled, passes_iff, sound.withoutColumn_iff (by decide) free] at passes
  exact passes (by decide)

end Schema

end Schemata
