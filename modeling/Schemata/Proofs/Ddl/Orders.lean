import Mathlib.Data.List.Perm.Basic
import Schemata.Ddl.Compilation
import Schemata.Proofs.Ddl.Canonical
import Schemata.Proofs.Rules.Sound

/-! The two orders of a compilation, stage by stage and table by table. They hold the same
statements, keep those of a table in order, and add a foreign key only after both of its tables. -/

namespace Schemata.Ddl

/-- The table that a statement works on; what the tables share works on none. -/
def Statement.table? : Statement → Option String
  | .createFunction _ => none
  | .createTable table _ | .dropConstraint table _ | .addForeignKey table _ _ _
  | .createIndex _ _ table _ | .enableRowSecurity table | .dropPolicy _ table
  | .createPolicy _ table _ _ | .dropTrigger _ table | .createTrigger _ table _
  | .addColumn table _ | .dropColumn table _ | .dropTable table => some table

/-- The statements of some tables, one table after the other. -/
def Compilation.blocks (c : Compilation) (names : List String) : List Statement :=
  names.flatMap fun name => (c.forTable? name).getD []

/-- All statements in the order of a run table by table. -/
def Compilation.statementsByTable (c : Compilation) : List Statement :=
  c.shared ++ c.blocks c.dependencyOrder

/-- The statement that adds the constraint behind a foreign key. -/
def addForeignKeyStatement (table : Table) (column : Column) (ref : Reference) : Statement :=
  .addForeignKey table.name (constraintName table.name column.name) column.name ref

/-- An order of the statements for a schema that starts with what the tables share, keeps the
statements of every table in their groups, and adds a foreign key after both of its tables. -/
structure Arranged (options : Options) (schema : Schema) (order : List Statement) : Prop where
  shared : ∃ rest, order = .createFunction options.updatedAtFunction :: rest
  grouped : ∀ table ∈ schema.tables, (order.filter fun s => s.table? = some table.name) =
    (TableDdl.ofTable options table).statements
  targets : ∀ table ∈ schema.tables, ∀ column ref, (column, ref) ∈ table.foreignKeys →
    ∃ target ∈ schema.tables, target.name = ref.table ∧ ∀ before after,
      order = before ++ addForeignKeyStatement table column ref :: after →
        createTableStatement table ∈ before ∧ createTableStatement target ∈ before

/-! ### Lists in blocks -/

private theorem prefix_of_split {front later before after : List α}
    (split : front ++ later = before ++ value :: after) (absent : value ∉ front) :
    ∃ middle, before = front ++ middle ∧ later = middle ++ value :: after := by
  rcases List.append_eq_append_iff.mp split with ⟨middle, extended, rest⟩ | ⟨rest, inside, cut⟩
  · exact ⟨middle, extended, rest⟩
  · cases rest with
    | nil => exact ⟨[], by simpa using inside.symm, by simpa using cut.symm⟩
    | cons head rest =>
      obtain ⟨rfl, -⟩ := List.cons.inj cut
      exact absurd (inside ▸ List.mem_append_right before (List.mem_cons_self ..)) absent

/-- An occurrence of a value in a list of blocks lies in one of the blocks. -/
private theorem flatMap_split {items : List α} {block : α → List β}
    (split : items.flatMap block = before ++ value :: after) :
    ∃ earlier item later inner rest, items = earlier ++ item :: later ∧
      block item = inner ++ value :: rest ∧ before = earlier.flatMap block ++ inner := by
  induction items generalizing before with
  | nil => simp at split
  | cons head tail ih =>
    rw [List.flatMap_cons] at split
    rcases List.append_eq_append_iff.mp split with ⟨middle, rfl, cut⟩ | ⟨rest, own, cut⟩
    · obtain ⟨earlier, item, later, inner, rest, rfl, own, rfl⟩ := ih cut
      exact ⟨head :: earlier, item, later, inner, rest, rfl, own, by simp⟩
    · cases rest with
      | nil =>
        have atStart : tail.flatMap block = [] ++ value :: after := cut.symm
        obtain ⟨earlier, item, later, inner, rest, rfl, found, nothing⟩ := ih atStart
        refine ⟨head :: earlier, item, later, inner, rest, rfl, found, ?_⟩
        rw [List.flatMap_cons, List.append_assoc, ← nothing, own]
        simp
      | cons first rest =>
        obtain ⟨rfl, -⟩ := List.cons.inj cut
        exact ⟨[], head, tail, before, rest, rfl, own, rfl⟩

/-- Blocks of different tables do not mix: the statements of a table are those of its block. -/
theorem filter_blocks {tables : List Table} {block : Table → List Statement}
    (owned : ∀ table, ∀ s ∈ block table, s.table? = some table.name)
    (distinct : (tables.map (·.name)).Nodup) (member : table ∈ tables) :
    ((tables.flatMap block).filter fun s => s.table? = some table.name) = block table :=
  Keyed.filter_flatMap owned distinct member

/-! ### The statements of one table -/

theorem mem_foreignKeyStatements_iff (table : Table) :
    s ∈ foreignKeyStatements table ↔ ∃ column ref, (column, ref) ∈ table.foreignKeys ∧
      (s = .dropConstraint table.name (constraintName table.name column.name) ∨
        s = addForeignKeyStatement table column ref) := by
  simp [foreignKeyStatements, addForeignKeyStatement, List.mem_flatMap]

section Groups

variable (options : Options) (table : Table)

theorem foreignKeyStatements_table? : ∀ s ∈ foreignKeyStatements table, s.table? =
    some table.name := by
  intro s member
  obtain ⟨column, ref, -, rfl | rfl⟩ := (mem_foreignKeyStatements_iff table).mp member <;> rfl

theorem exists_of_mem_indexStatements (member : s ∈ indexStatements table) :
    ∃ unique name columns, s = .createIndex unique name table.name columns := by
  rcases List.mem_append.mp member with declared | usual
  · obtain ⟨index, -, rfl⟩ := List.mem_map.mp declared
    exact ⟨_, _, _, rfl⟩
  · obtain ⟨column, -, made⟩ := List.mem_filterMap.mp usual
    simp only [Option.ite_none_left_eq_some, Option.some.injEq] at made
    exact ⟨_, _, _, made.2.symm⟩

theorem indexStatements_table? : ∀ s ∈ indexStatements table, s.table? = some table.name := by
  intro s member
  obtain ⟨unique, name, columns, rfl⟩ := exists_of_mem_indexStatements table member
  rfl

theorem rowSecurityStatements_table? (name : String) :
    ∀ s ∈ rowSecurityStatements options name, s.table? = some name := by
  simp [rowSecurityStatements, Statement.table?]

theorem triggerStatements_table? (name : String) :
    ∀ s ∈ triggerStatements options name, s.table? = some name := by
  simp [triggerStatements, Statement.table?]

theorem statements_table? :
    ∀ s ∈ (TableDdl.ofTable options table).statements, s.table? = some table.name := by
  intro s member
  simp only [TableDdl.statements, TableDdl.ofTable, List.cons_append, List.mem_cons,
    List.mem_append, or_assoc] at member
  rcases member with rfl | key | index | security | trigger
  · rfl
  · exact foreignKeyStatements_table? table s key
  · exact indexStatements_table? table s index
  · exact rowSecurityStatements_table? options table.name s security
  · exact triggerStatements_table? options table.name s trigger

/-- In the block of a table nothing but its creation comes first. -/
theorem created_before_key (split : (TableDdl.ofTable options table).statements =
    before ++ addForeignKeyStatement table column ref :: after) :
    createTableStatement table ∈ before := by
  cases before with
  | nil => simp [TableDdl.statements, TableDdl.ofTable, createTableStatement,
      addForeignKeyStatement] at split
  | cons head rest =>
    obtain ⟨rfl, -⟩ := List.cons.inj split
    exact List.mem_cons_self ..

end Groups

/-! ### Stage by stage -/

section Orders

variable {schema : Schema} (options : Options)

theorem target_of_key (sound : schema.Sound limits) (member : table ∈ schema.tables)
    (key : (column, ref) ∈ table.foreignKeys) :
    ∃ target ∈ schema.tables, target.name = ref.table := by
  obtain ⟨inside, found⟩ := table.mem_foreignKeys_iff.mp key
  obtain ⟨target, present, named, -⟩ :=
    sound.linked.foreignKeys table member column inside ref found
  exact ⟨target, present, named⟩

theorem statements_ofSchema (schema : Schema) : (Compilation.ofSchema options schema).statements =
    .createFunction options.updatedAtFunction :: schema.tables.map createTableStatement ++
      (schema.tables.flatMap foreignKeyStatements ++ (schema.tables.flatMap indexStatements ++
        ((schema.tables.flatMap fun table => rowSecurityStatements options table.name) ++
          schema.tables.flatMap fun table => triggerStatements options table.name))) := by
  simp [Compilation.statements, Compilation.shared, Compilation.stages, Compilation.ofSchema,
    TableDdl.ofTable, List.flatMap_map, Function.comp_def]

/-- The stages regroup the statements of the tables. -/
theorem statements_perm_blocks (schema : Schema) :
    (Compilation.ofSchema options schema).statements.Perm
      (.createFunction options.updatedAtFunction ::
        schema.tables.flatMap fun table => (TableDdl.ofTable options table).statements) := by
  rw [statements_ofSchema, List.cons_append, List.perm_cons]
  have last := List.flatMap_append_perm schema.tables
    (fun table => rowSecurityStatements options table.name)
    fun table => triggerStatements options table.name
  have fromIndexes := (last.append_left _).trans
    (List.flatMap_append_perm schema.tables indexStatements _)
  have fromKeys := (fromIndexes.append_left _).trans
    (List.flatMap_append_perm schema.tables foreignKeyStatements _)
  refine ((fromKeys.append_left _).trans
    (List.map_append_flatMap_perm schema.tables createTableStatement _)).trans (.of_eq ?_)
  simp [TableDdl.statements, TableDdl.ofTable]

theorem statements_arranged (sound : schema.Sound limits) :
    Arranged options schema (Compilation.ofSchema options schema).statements where
  shared := ⟨_, statements_ofSchema options schema⟩
  grouped table member := by
    have distinct := sound.tableNames
    have created : ((schema.tables.map createTableStatement).filter
        fun s => s.table? = some table.name) = [createTableStatement table] := by
      rw [List.map_eq_flatMap]
      exact filter_blocks (by simp [createTableStatement, Statement.table?]) distinct member
    have keys := filter_blocks foreignKeyStatements_table? distinct member
    have indexes := filter_blocks indexStatements_table? distinct member
    have security := filter_blocks (fun table => rowSecurityStatements_table? options table.name)
      distinct member
    have triggers := filter_blocks (fun table => triggerStatements_table? options table.name)
      distinct member
    rw [statements_ofSchema, List.cons_append, List.filter_cons_of_neg (by simp [Statement.table?]),
      List.filter_append, List.filter_append, List.filter_append, List.filter_append, created, keys,
      indexes, security, triggers]
    simp [TableDdl.statements, TableDdl.ofTable]
  targets table member column ref key := by
    obtain ⟨target, present, named⟩ := target_of_key sound member key
    refine ⟨target, present, named, fun before after split => ?_⟩
    rw [statements_ofSchema] at split
    -- No constraint is added before the last table is created.
    obtain ⟨middle, rfl, -⟩ := prefix_of_split split
      (by simp [addForeignKeyStatement, createTableStatement])
    have created : ∀ other ∈ schema.tables, createTableStatement other ∈
        .createFunction options.updatedAtFunction :: schema.tables.map createTableStatement ++
          middle :=
      fun other inside => List.mem_append_left _
        (List.mem_cons_of_mem _ (List.mem_map_of_mem inside))
    exact ⟨created table member, created target present⟩

/-! ### Table by table -/

theorem refers_ofSchema_iff : (Compilation.ofSchema options schema).Refers name target ↔
    target ∈ schema.tableNames ∧ target ≠ name ∧
      ∃ table ∈ schema.tables, table.name = name ∧ target ∈ table.references := by
  rw [Compilation.Refers, Compilation.tableNames_ofSchema]
  simp [Compilation.ofSchema, TableDdl.ofTable]

theorem refers_of_compiled (edge : (Compilation.ofSchema options schema).Refers name target) :
    schema.Refers name target := by
  obtain ⟨listed, -, table, member, named, points⟩ := (refers_ofSchema_iff options).mp edge
  exact ⟨listed, table, member, named, table.mem_references_iff.mp points⟩

/-- In a sound schema every foreign key is compiled to a reference: no table points at itself. -/
theorem compiled_of_key (sound : schema.Sound limits) (member : table ∈ schema.tables)
    (key : (column, ref) ∈ table.foreignKeys) :
    (Compilation.ofSchema options schema).Refers table.name ref.table := by
  obtain ⟨inside, found⟩ := table.mem_foreignKeys_iff.mp key
  obtain ⟨target, present, named⟩ := target_of_key sound member key
  have listed : ref.table ∈ schema.tableNames := named ▸ List.mem_map_of_mem present
  have points : ref.table ∈ table.references :=
    table.mem_references_iff.mpr ⟨column, inside, ref, found, rfl⟩
  refine (refers_ofSchema_iff options).mpr ⟨listed, fun same => ?_, table, member, rfl, points⟩
  exact sound.acyclic table.name 0
    (.single ⟨same ▸ listed, table, member, rfl, column, inside, ref, found, same⟩)

theorem forTable?_ofSchema (distinct : schema.tableNames.Nodup) (member : table ∈ schema.tables) :
    (Compilation.ofSchema options schema).forTable? table.name =
      some (TableDdl.ofTable options table).statements := by
  have names : (Compilation.ofSchema options schema).tableNames.Nodup :=
    Compilation.tableNames_ofSchema options schema ▸ distinct
  have found : (Compilation.ofSchema options schema).tables.find? (·.name == table.name) =
      some (TableDdl.ofTable options table) :=
    (Keyed.find?_eq_some_iff names).mpr ⟨List.mem_map_of_mem member, rfl⟩
  rw [Compilation.forTable?, found, Option.map_some]

theorem blocks_ofSchema (distinct : schema.tableNames.Nodup) {tables : List Table}
    (members : ∀ table ∈ tables, table ∈ schema.tables) :
    (Compilation.ofSchema options schema).blocks (tables.map (·.name)) =
      tables.flatMap fun table => (TableDdl.ofTable options table).statements := by
  rw [Compilation.blocks, List.flatMap_map]
  refine List.flatMap_congr fun table member => ?_
  rw [forTable?_ofSchema options distinct (members table member), Option.getD_some]

/-- The names in dependency order are those of the tables of the schema, in some order. -/
theorem exists_tables_of_dependencyOrder (distinct : schema.tableNames.Nodup) :
    ∃ tables : List Table, tables.Perm schema.tables ∧
      (Compilation.ofSchema options schema).dependencyOrder = tables.map (·.name) := by
  rw [← Compilation.tableNames_ofSchema options schema] at distinct
  have order := Compilation.dependencyOrder_perm distinct
  rw [Compilation.tableNames_ofSchema] at order
  obtain ⟨tables, named, perm⟩ := (congrFun₂ (List.eq_map_comp_perm Table.name) _ _).mpr order
  exact ⟨tables, perm, named⟩

/-- Table by table the statements come in the blocks of the tables. -/
theorem statementsByTable_eq_blocks (distinct : schema.tableNames.Nodup) {tables : List Table}
    (perm : tables.Perm schema.tables)
    (named : (Compilation.ofSchema options schema).dependencyOrder = tables.map (·.name)) :
    (Compilation.ofSchema options schema).statementsByTable =
      .createFunction options.updatedAtFunction ::
        tables.flatMap fun table => (TableDdl.ofTable options table).statements := by
  rw [Compilation.statementsByTable, named,
    blocks_ofSchema options distinct fun table member => perm.mem_iff.mp member]
  rfl

/-- In dependency order the target of a foreign key comes before its table. -/
theorem target_before_table (sound : schema.Sound limits) (member : table ∈ schema.tables)
    (key : (column, ref) ∈ table.foreignKeys) {earlier later : List Table}
    (named : (Compilation.ofSchema options schema).dependencyOrder =
      (earlier ++ table :: later).map (·.name)) : ref.table ∈ earlier.map (·.name) := by
  have distinct : (Compilation.ofSchema options schema).tableNames.Nodup :=
    Compilation.tableNames_ofSchema options schema ▸ sound.tableNames
  have canonical :=
    Compilation.canonical_of_acyclic distinct (sound.acyclic.mono (refers_of_compiled options))
  rw [List.map_append, List.map_cons] at named
  exact canonical.ranked _ table.name _ named ref.table (compiled_of_key options sound member key)

theorem statementsByTable_arranged (sound : schema.Sound limits) :
    Arranged options schema (Compilation.ofSchema options schema).statementsByTable := by
  have distinct := sound.tableNames
  obtain ⟨tables, perm, named⟩ := exists_tables_of_dependencyOrder options distinct
  have blocks := statementsByTable_eq_blocks options distinct perm named
  have names : (tables.map (·.name)).Nodup := (perm.map _).nodup_iff.mpr distinct
  refine ⟨⟨_, blocks⟩, fun table member => ?_, fun table member column ref key => ?_⟩
  · rw [blocks, List.filter_cons_of_neg (by simp [Statement.table?])]
    exact filter_blocks (statements_table? options) names (perm.mem_iff.mpr member)
  · obtain ⟨target, present, pointed⟩ := target_of_key sound member key
    refine ⟨target, present, pointed, fun before after split => ?_⟩
    rw [blocks, ← List.singleton_append] at split
    obtain ⟨front, rfl, inBlocks⟩ := prefix_of_split split (by simp [addForeignKeyStatement])
    obtain ⟨earlier, owner, later, inner, rest, order, block, rfl⟩ := flatMap_split inBlocks
    subst order
    have unique {one other : Table} := List.inj_on_of_nodup_map names (x := one) (y := other)
    -- The constraint stands in the block of its own table, after the head of the block.
    have same : owner = table := by
      have owned := statements_table? options owner (addForeignKeyStatement table column ref)
        (block ▸ List.mem_append_right inner (List.mem_cons_self ..))
      exact unique (by simp) (perm.mem_iff.mpr member) (Option.some.inj owned).symm
    subst owner
    have own := created_before_key options table block
    -- The block of the target is one of the blocks before.
    have before := target_before_table options sound member key named
    obtain ⟨other, inside, alike⟩ := List.mem_map.mp (pointed ▸ before)
    obtain rfl := unique (by simp [inside]) (perm.mem_iff.mpr present) alike
    have created : createTableStatement other ∈ (TableDdl.ofTable options other).statements :=
      List.mem_cons_self ..
    exact ⟨List.mem_append_right _ (List.mem_append_right _ own),
      List.mem_append_right _ (List.mem_append_left
        _ (List.mem_flatMap.mpr ⟨other, inside, created⟩))⟩

end Orders

end Schemata.Ddl
