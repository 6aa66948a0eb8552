import Schemata.Proofs.Ddl.Catalog

/-! The indexes that a database has after the statements of a compilation. Index names are shared by
all tables of a database, and an index whose name is taken is not made: of the indexes that a schema
asks for under one name only the first one is there. -/

namespace Schemata

open Ddl

/-- An index that is declared for a table, as a database has it. -/
def Index.stored (index : Index) (table : Table) : StoredIndex :=
  ⟨index.name, table.name, index.columns, index.unique⟩

namespace Table

/-- The index that every table has on a column, as a database has it. -/
def usualIndex (table : Table) (column : String) : StoredIndex :=
  ⟨usualIndexName table.name column, table.name, [column], false⟩

/-- The indexes that the statements of a table ask for. -/
def wantedIndexes (table : Table) : List StoredIndex :=
  (indexStatements table).filterMap Statement.index?

/-- The index names that are taken after the statements of a table. -/
def takenNames (table : Table) : List String :=
  table.indexNames ++ indexedColumns.map (usualIndexName table.name)

/-- The usual index on a column has a name of its own: none of the tables before, no declared index
and no usual index on an earlier column takes it. -/
structure NameFree (table : Table) (before : List Table) (column : String) : Prop where
  tables : usualIndexName table.name column ∉ before.flatMap takenNames
  declared : usualIndexName table.name column ∉ table.indexNames
  first : FirstAsked (indexedColumns.map table.usualIndex) (table.usualIndex column)

end Table

/-- Every declared index is there, and every table has an index that starts with each of the usual
columns. -/
structure Schema.IndexedBy (schema : Schema) (indexes : List StoredIndex) : Prop where
  declared : ∀ table ∈ schema.tables, ∀ index ∈ table.indexes, index.stored table ∈ indexes
  usual : ∀ table ∈ schema.tables, ∀ column ∈ indexedColumns,
    ∃ index ∈ indexes, index.table = table.name ∧ index.columns.head? = some column

/-- No table takes the name of an index that a later one declares, and each usual index has a name
of its own unless a declared index starts with its column. -/
structure Schema.IndexNamesFree (schema : Schema) : Prop where
  declared : ∀ before table after, schema.tables = before ++ table :: after →
    ∀ name ∈ table.indexNames, name ∉ before.flatMap Table.takenNames
  usual : ∀ before table after, schema.tables = before ++ table :: after →
    ∀ column ∈ indexedColumns,
    (∃ index ∈ table.indexes, index.columns.head? = some column) ∨ table.NameFree before column

namespace Ddl

theorem wantedIndexes_eq (table : Table) :
    table.wantedIndexes = table.indexes.map (·.stored table) ++
    (indexedColumns.map table.usualIndex).filter (·.name ∉ table.indexNames) := by
  rw [Table.wantedIndexes, indexStatements, List.filterMap_append, List.filterMap_map,
    List.filterMap_filterMap]
  congr 1
  · exact List.filterMap_eq_map ▸ rfl
  · induction indexedColumns with
    | nil => rfl
    | cons column rest ih =>
      have listed :
          (table.indexes.map (·.name)).contains (usualIndexName table.name column) = true ↔
          (table.usualIndex column).name ∈ table.indexNames := List.contains_iff_mem
      rw [List.filterMap_cons, ih, List.map_cons, List.filter_cons]
      dsimp only
      by_cases taken : (table.usualIndex column).name ∈ table.indexNames
      · rw [if_pos (listed.mpr taken), if_neg (by simpa using taken)]
        rfl
      · rw [if_neg (mt listed.mp taken), if_pos (decide_eq_true taken)]
        rfl

theorem map_name_stored (table : Table) : (table.indexes.map (·.stored table)).map (·.name) =
    table.indexNames := by
  rw [List.map_map]
  rfl

private theorem table_of_mem_wantedIndexes {table : Table} {index : StoredIndex}
    (wanted : index ∈ table.wantedIndexes) :
    index.table = table.name := by
  rw [wantedIndexes_eq, List.mem_append] at wanted
  rcases wanted with declared | usual
  · obtain ⟨_, -, rfl⟩ := List.mem_map.mp declared
    rfl
  · obtain ⟨_, -, rfl⟩ := List.mem_map.mp (List.mem_of_mem_filter usual)
    rfl

private theorem mem_map_name_wantedIndexes {table : Table} {name : String} :
    name ∈ table.wantedIndexes.map (·.name) ↔ name ∈ table.takenNames := by
  rw [wantedIndexes_eq, Table.takenNames, List.map_append, map_name_stored, List.mem_append,
    List.mem_append]
  constructor
  · rintro (known | usual)
    · exact .inl known
    · obtain ⟨index, kept, rfl⟩ := List.mem_map.mp usual
      obtain ⟨column, member, rfl⟩ := List.mem_map.mp (List.mem_of_mem_filter kept)
      exact .inr (List.mem_map_of_mem member)
  · rintro (known | usual)
    · exact .inl known
    · obtain ⟨column, member, rfl⟩ := List.mem_map.mp usual
      refine or_iff_not_imp_left.mpr fun free => List.mem_map.mpr ⟨table.usualIndex column, ?_, rfl⟩
      exact List.mem_filter.mpr ⟨List.mem_map_of_mem member, decide_eq_true free⟩

private theorem firstAsked_filter {wanted : List StoredIndex} {names : List String} :
    FirstAsked (wanted.filter (·.name ∉ names)) index ↔
      index.name ∉ names ∧ FirstAsked wanted index := by
  induction wanted with
  | nil => simp [not_firstAsked_nil]
  | cons first rest ih =>
    rw [List.filter_cons, firstAsked_cons]
    split
    · rename_i free
      rw [firstAsked_cons, ih]
      constructor
      · rintro (rfl | ⟨other, rest⟩)
        · exact ⟨of_decide_eq_true free, .inl rfl⟩
        · exact ⟨rest.1, .inr ⟨other, rest.2⟩⟩
      · rintro ⟨own, rfl | ⟨other, asked⟩⟩
        · exact .inl rfl
        · exact .inr ⟨other, own, asked⟩
    · rename_i taken
      have taken : first.name ∈ names := by simpa using taken
      rw [ih]
      refine and_congr_right fun own =>
        ⟨fun asked => .inr ⟨fun same => own (same ▸ taken), asked⟩, ?_⟩
      rintro (rfl | ⟨-, asked⟩)
      · exact absurd taken own
      · exact asked

/-- What a table asks for first under each name: all its declared indexes, and the usual ones with
other names. -/
theorem firstAsked_wantedIndexes {table : Table} (distinct : table.indexNames.Nodup) :
    FirstAsked table.wantedIndexes index ↔ (∃ declared ∈ table.indexes, index =
      declared.stored table) ∨
      (index.name ∉ table.indexNames ∧ FirstAsked (indexedColumns.map table.usualIndex) index) := by
  rw [wantedIndexes_eq, firstAsked_append, map_name_stored, firstAsked_filter, and_self_left]
  refine or_congr_left ⟨fun asked => ?_, ?_⟩
  · obtain ⟨declared, member, rfl⟩ := List.mem_map.mp asked.mem
    exact ⟨declared, member, rfl⟩
  · rintro ⟨declared, member, rfl⟩
    exact firstAsked_of_nodup (map_name_stored table ▸ distinct) (List.mem_map_of_mem member)

section Tables

variable {before after : List Table} {table : Table}
  (distinct : ((before ++ table :: after).map (·.name)).Nodup)
include distinct

/-- An index of a table is made when the tables before it leave its name, and it is the first of the
table's own indexes to have that name. -/
theorem firstAsked_of_table (own : index.table = table.name) :
    FirstAsked ((before ++ table :: after).flatMap Table.wantedIndexes) index ↔
      index.name ∉ before.flatMap Table.takenNames ∧ FirstAsked table.wantedIndexes index := by
  have foreign : ∀ others : List Table, table.name ∉ others.map (·.name) →
      ¬ FirstAsked (others.flatMap Table.wantedIndexes) index := by
    intro others absent asked
    obtain ⟨other, member, wanted⟩ := List.mem_flatMap.mp asked.mem
    exact absent (List.mem_map.mpr ⟨other, member,
      (table_of_mem_wantedIndexes wanted).symm.trans own⟩)
  have names : index.name ∉ (before.flatMap Table.wantedIndexes).map (·.name) ↔
      index.name ∉ before.flatMap Table.takenNames := by
    rw [List.map_flatMap, List.mem_flatMap, List.mem_flatMap]
    simp only [mem_map_name_wantedIndexes]
  rw [List.map_append, List.map_cons] at distinct
  obtain ⟨-, nodup, apart⟩ := List.nodup_append.mp distinct
  have earlier := foreign before fun known => apart _ known _ (List.mem_cons_self ..) rfl
  have later := foreign after (List.nodup_cons.mp nodup).1
  rw [List.flatMap_append, List.flatMap_cons, firstAsked_append, firstAsked_append, names]
  simp only [earlier, later, and_false, or_false, false_or]

end Tables

private theorem filterMap_index?_statements (options : Options) (schema : Schema) :
    (Compilation.ofSchema options schema).statements.filterMap Statement.index? =
      schema.tables.flatMap Table.wantedIndexes := by
  have created : (schema.tables.map createTableStatement).filterMap Statement.index? = [] := by
    simp [createTableStatement, Statement.index?]
  have keys : (schema.tables.flatMap foreignKeyStatements).filterMap Statement.index? = [] := by
    simp [foreignKeyStatements, Statement.index?, List.filterMap_flatMap]
  have security :
      (schema.tables.flatMap fun table => rowSecurityStatements options table.name).filterMap
      Statement.index? = [] := by
    simp [rowSecurityStatements, Statement.index?, List.filterMap_flatMap]
  have triggers :
      (schema.tables.flatMap fun table => triggerStatements options table.name).filterMap
      Statement.index? = [] := by
    simp [triggerStatements, Statement.index?, List.filterMap_flatMap]
  rw [statements_ofSchema, List.filterMap_append, List.filterMap_append, List.filterMap_append,
    List.filterMap_append, List.filterMap_cons, created, keys, security, triggers,
      List.filterMap_flatMap,
    List.append_nil, List.append_nil, List.nil_append]
  rfl

/-- A schema has all its indexes exactly when every index that it needs is the first one with its
name. -/
theorem indexedBy_iff {schema : Schema} (sound : schema.Sound limits)
    (made : ∀ index, index ∈ indexes ↔
    FirstAsked (schema.tables.flatMap Table.wantedIndexes) index) :
    schema.IndexedBy indexes ↔ schema.IndexNamesFree := by
  have stored {before after : List Table} {table : Table} (split : schema.tables =
      before ++ table :: after)
      (index : StoredIndex) (own : index.table = table.name) : index ∈ indexes ↔
        index.name ∉ before.flatMap Table.takenNames ∧
          ((∃ declared ∈ table.indexes, index = declared.stored table) ∨
            (index.name ∉ table.indexNames ∧ FirstAsked
              (indexedColumns.map table.usualIndex) index)) := by
    have names : table.indexNames.Nodup :=
      (List.nodup_flatMap.mp sound.indexNames).1 table
        (split ▸ List.mem_append_right _ (List.mem_cons_self ..))
    have distinct := sound.tableNames
    rw [Schema.tableNames, split] at distinct
    rw [made, split, firstAsked_of_table distinct own, firstAsked_wantedIndexes names]
  constructor
  · intro indexed
    refine ⟨fun before table after split name member =>
      ?_, fun before table after split column usual => ?_⟩
    all_goals have inside : table ∈ schema.tables :=
      split ▸ List.mem_append_right _ (List.mem_cons_self ..)
    · obtain ⟨declared, listed, rfl⟩ := List.mem_map.mp member
      exact ((stored split (declared.stored table) rfl).mp
        (indexed.declared table inside declared listed)).1
    · obtain ⟨index, there, own, starts⟩ := indexed.usual table inside column usual
      obtain ⟨free, ⟨declared, listed, rfl⟩ | ⟨fresh, first⟩⟩ := (stored split index own).mp there
      · exact .inl ⟨declared, listed, starts⟩
      · obtain ⟨other, -, rfl⟩ := List.mem_map.mp first.mem
        obtain rfl : other = column := Option.some.inj starts
        exact .inr ⟨free, fresh, first⟩
  · intro free
    have kept {before after : List Table} {table : Table} (split : schema.tables =
        before ++ table :: after)
        {index : Index} (listed : index ∈ table.indexes) : index.stored table ∈ indexes :=
      (stored split (index.stored table) rfl).mpr
        ⟨free.declared _ _ _ split _ (List.mem_map_of_mem listed), .inl ⟨index, listed, rfl⟩⟩
    refine ⟨fun table inside index listed => ?_, fun table inside column usual => ?_⟩
    all_goals obtain ⟨before, after, split⟩ := List.append_of_mem inside
    · exact kept split listed
    · rcases free.usual _ _ _ split column usual with ⟨index, listed, starts⟩ | fits
      · exact ⟨_, kept split listed, rfl, starts⟩
      · have made := (stored split (table.usualIndex column) rfl).mpr
          ⟨fits.tables, .inr ⟨fits.declared, fits.first⟩⟩
        exact ⟨_, made, rfl, rfl⟩

end Ddl

/-- The compilation of a schema that passes the rules can be run, and makes of the indexes that it
asks for the first of each name. These are all that the schema is entitled to exactly when its index
names are free. -/
theorem indexes_after_run (limits : Limits) (options : Options) (schema : Schema)
    (passed : (validate (.schema schema) limits).passed = true) :
    ∃ c k, compile limits options schema = .ok c ∧ Catalog.empty.run? c.statements = some k ∧
      (∀ index, index ∈ k.indexes ↔ FirstAsked (schema.tables.flatMap Table.wantedIndexes) index) ∧
      (schema.IndexedBy k.indexes ↔ schema.IndexNamesFree) := by
  have passes : schema.passes limits = true := passed
  obtain ⟨k, done⟩ := statements_accepted options schema .empty
  have made :
      ∀ index, index ∈ k.indexes ↔
      FirstAsked (schema.tables.flatMap Table.wantedIndexes) index := by
    intro index
    rw [Catalog.indexes_of_run? done, filterMap_index?_statements, Catalog.mem_foldl_makeIndex]
    simp [Catalog.empty]
  exact ⟨_, k, if_pos passes, done, made, indexedBy_iff ((schema.passes_iff limits).mp passes) made⟩

/-- Deals have an index whose name is the one of the usual index of companies. -/
def Schema.namesakes : Schema where
  version := "1.0.0"
  tables := [
    { name := "deal"
      columns := auditColumns ++
        [⟨"company_id", .uuid, false, none, false, false, some ⟨"company", "id", .cascade⟩⟩]
      indexes := [⟨"idx_company_user_id", ["company_id"], false⟩]
      hints := .none },
    { name := "company", columns := auditColumns, indexes := [], hints := .none }]
  relationships := []

set_option maxRecDepth 100000 in
theorem Schema.namesakes_passed : (validate (.schema namesakes) .standard).passed = true := by
  decide +kernel

/-- The index of deals costs companies theirs. -/
theorem namesakes_indexes_after_run : (validate (.schema .namesakes) .standard).passed = true ∧
    ∃ c k, compile .standard .standard .namesakes = .ok c ∧
      Catalog.empty.run? c.statements = some k ∧
      ¬ Schema.namesakes.IndexedBy k.indexes := by
  have passed := Schema.namesakes_passed
  obtain ⟨c, k, compiled, done, -, all⟩ := indexes_after_run .standard .standard .namesakes passed
  refine ⟨passed, c, k, compiled, done, fun indexed => ?_⟩
  rcases (all.mp indexed).usual [_] _ [] rfl "user_id" (by decide) with ⟨index, listed, -⟩ | fits
  · cases listed
  · exact absurd (by decide +kernel) fits.tables

/-- Not every schema that passes the rules gets all its indexes. -/
theorem indexes_not_always_made : ¬ ∀ (limits : Limits) (options : Options) (schema : Schema),
    (validate (.schema schema) limits).passed = true →
      ∃ c k, compile limits options schema = .ok c ∧ Catalog.empty.run? c.statements = some k ∧
        schema.IndexedBy k.indexes := by
  intro always
  obtain ⟨c, k, compiled, done, indexed⟩ :=
    always .standard .standard .namesakes Schema.namesakes_passed
  have missing : ((compile .standard .standard .namesakes).toOption.bind fun c =>
      Catalog.empty.run? c.statements).map (fun k => k.indexes.filter fun index =>
        index.table = "company" ∧ index.columns.head? = some "user_id") = some [] := by
    decide +kernel
  rw [compiled, Except.toOption, Option.bind_some, done, Option.map_some, Option.some.injEq,
    List.filter_eq_nil_iff] at missing
  have company : ∃ table ∈ Schema.namesakes.tables, table.name = "company" := by decide
  obtain ⟨table, inside, named⟩ := company
  obtain ⟨index, there, own, starts⟩ := indexed.usual table inside "user_id" (by decide)
  exact missing index there (decide_eq_true ⟨own.trans named, starts⟩)

end Schemata
