import Schemata.Proofs.Ddl.Layout

/-! The script of a compilation as a name of its schema. Read from its start, the script gives the
version, the statements that create the tables, those of the foreign keys and those of the indexes,
one after the other; what follows them says nothing new. -/

namespace Schemata

open Ddl Sql

namespace Ddl

/-! ### The header -/

private theorem dashless_version (version : IsVersion text) : '-' ∉ text.toList := by
  obtain ⟨major, minor, patch, lineEnd, majorNumber, minorNumber, patchNumber, ends, split⟩ :=
    version
  have digits {cs : List Char} (number : IsNumber cs) : '-' ∉ cs := fun member =>
    absurd (number.2 _ member) (by decide)
  have last : '-' ∉ lineEnd := by rcases ends with rfl | rfl <;> decide
  rw [split]
  simp [digits majorNumber, digits minorNumber, digits patchNumber, last]

private theorem dashless_identifier (identifier : IsIdentifier name) : '-' ∉ name.toList := by
  obtain ⟨first, rest, lineEnd, letter, inner, ends, split⟩ := identifier
  have last : '-' ∉ lineEnd := by rcases ends with rfl | rfl <;> decide
  have start : first ≠ '-' := by
    rintro rfl
    exact absurd letter (by unfold IsSmallLetter; decide)
  have middle : '-' ∉ rest :=
    fun member => absurd (inner _ member) (by unfold IsSmallLetter; decide)
  rw [split]
  simp [start.symm, middle, last]

private theorem dashless_list {names : List String} (dashless : ∀ name ∈ names, '-' ∉ name.toList) :
    '-' ∉ (", ".intercalate names).toList := by
  induction names with
  | nil => simp
  | cons name rest ih =>
    obtain ⟨first, later⟩ := List.forall_mem_cons.mp dashless
    cases rest with
    | nil => simpa using first
    | cons next more =>
      rw [String.intercalate_cons_cons, String.toList_append, String.toList_append]
      simp only [List.mem_append, not_or]
      exact ⟨⟨first, by decide⟩, ih later⟩

theorem dashless_tableNames {schema : Schema} (sound : schema.Sound limits) (options : Options) :
    ∀ name ∈ (Compilation.ofSchema options schema).tableNames, '-' ∉ name.toList := by
  have listed : (Compilation.ofSchema options schema).tableNames = schema.tables.map (·.name) := by
    simp [Compilation.tableNames, Compilation.ofSchema, TableDdl.ofTable]
  rw [listed]
  exact List.forall_mem_map.mpr fun table member =>
    dashless_identifier (sound.names table member).self.form

private theorem prefixFree_dashless : PrefixFree (fun text => '-' ∉ text.toList) (· = '-') := by
  rintro text other _ more - dashless rfl same
  exact dashless (same ▸ List.mem_append_right _ (List.mem_cons_self ..))

/-- A header starts with the version, and the end of a header is known. -/
theorem header_append_inj {c d : Compilation} (version : '-' ∉ c.version.toList)
    (other : '-' ∉ d.version.toList) (names : ∀ name ∈ c.tableNames, '-' ∉ name.toList)
    (others : ∀ name ∈ d.tableNames, '-' ∉ name.toList)
    (same : separated ['\n'] c.header ++ after = separated ['\n'] d.header ++ rest) :
    c.version = d.version ∧ after = rest := by
  have written (c : Compilation) (after : List Char) : separated ['\n'] c.header ++ after =
      '\n' :: "-- SchemaForge generated schema v".toList ++ ((c.version ++ "\n").toList ++ '-' ::
        ("- Tables: ".toList ++ ((", ".intercalate c.tableNames ++ "\n").toList ++ '-' ::
          ("- DO NOT MANUALLY EDIT".toList ++ after)))) := by
    simp [separated, Compilation.header]
  have line {text : String} (dashless : '-' ∉ text.toList) : '-' ∉ (text ++ "\n").toList := by
    simpa using dashless
  rw [written, written, List.append_cancel_left_eq] at same
  obtain ⟨versions, same⟩ :=
    prefixFree_dashless.append_inj (line version) (line other) (by simp) (by simp) same
  obtain ⟨-, same⟩ := List.cons.inj same
  rw [List.append_cancel_left_eq] at same
  obtain ⟨-, same⟩ := prefixFree_dashless.append_inj (line (dashless_list names))
    (line (dashless_list others))
    (by simp) (by simp) same
  obtain ⟨-, same⟩ := List.cons.inj same
  rw [List.append_cancel_left_eq] at same
  exact ⟨String.toList_inj.mp (by simpa using congrArg String.toList versions), same⟩

/-! ### The stages -/

/-- A written statement, which starts with a word. -/
def IsStatement (text : String) : Prop :=
  (∃ quotes, OneStatement text quotes) ∧ ∃ c, text.toList.head? = some c ∧ c ≠ '\n'

private theorem prefixFree_isStatement : PrefixFree IsStatement (Quote.of? · = none) :=
  fun _ _ _ _ first second => prefixFree_oneStatement _ _ _ _ first.1 second.1

/-- A text that starts with a blank line. -/
def StartsBlank (cs : List Char) : Prop := ∃ more, cs = '\n' :: '\n' :: more

private theorem ends_of_startsBlank (blank : StartsBlank after) :
    Ends IsStatement (Quote.of? · = none) ['\n'] after where
  next := by
    obtain ⟨more, rfl⟩ := blank
    rintro _ ⟨rfl⟩
    rfl
  last text statement inFront := by
    obtain ⟨more, rfl⟩ := blank
    obtain ⟨-, c, head, other⟩ := statement
    obtain ⟨rest, split⟩ := inFront
    obtain ⟨tail, starts⟩ := List.head?_eq_some_iff.mp head
    rw [starts] at split
    simp only [List.cons_append, List.nil_append, List.cons.injEq, true_and] at split
    exact other split.1

/-- A stage as it stands in the script. -/
def stageText (title : String) (statements : List Statement) : List Char :=
  separated ['\n'] (Compilation.stageParts (title, statements))

theorem stageText_of_ne_nil (title : String) (nonempty : statements ≠ []) :
    stageText title statements =
    '\n' :: '\n' :: ("-- " ++ title).toList ++ separated ['\n'] (statements.map Statement.sql) := by
  have some : statements.isEmpty = false := by simpa using nonempty
  simp [stageText, Compilation.stageParts, some, separated]

theorem startsBlank_stageText (title : String) (nonempty : statements ≠ []) (after : List Char) :
    StartsBlank (stageText title statements ++ after) := by
  rw [stageText_of_ne_nil title nonempty]
  exact ⟨_, rfl⟩

/-- A stage is known from what starts with it when a blank line follows. -/
theorem stageText_append_inj {title : String} {statements others : List Statement}
    (nonempty : statements ≠ []) (something : others ≠ [])
    (first : ∀ s ∈ statements, IsStatement s.sql) (second : ∀ s ∈ others, IsStatement s.sql)
    (blank : StartsBlank after) (empty : StartsBlank rest)
    (same : stageText title statements ++ after = stageText title others ++ rest) :
    statements.map Statement.sql = others.map Statement.sql ∧ after = rest := by
  rw [stageText_of_ne_nil title nonempty, stageText_of_ne_nil title something, List.append_assoc,
    List.append_assoc, List.append_cancel_left_eq] at same
  exact prefixFree_isStatement.separated_append_inj rfl (List.forall_mem_map.mpr first)
    (List.forall_mem_map.mpr second) (ends_of_startsBlank blank) (ends_of_startsBlank empty) same

/-- A stage that may be missing is known as well, when the next one has another title. -/
theorem optional_stageText_append_inj {statements others : List Statement}
    (first : ∀ s ∈ statements, IsStatement s.sql) (second : ∀ s ∈ others, IsStatement s.sql)
    (blank : StartsBlank after) (empty : StartsBlank rest)
    (titled : ∀ statements more, statements ≠ [] → after ≠ stageText title statements ++ more)
    (untitled : ∀ statements more, statements ≠ [] → rest ≠ stageText title statements ++ more)
    (same : stageText title statements ++ after = stageText title others ++ rest) :
    statements.map Statement.sql = others.map Statement.sql ∧ after = rest := by
  by_cases nonempty : statements = []
  · by_cases something : others = []
    · subst nonempty something
      exact ⟨rfl, by simpa [stageText, Compilation.stageParts, separated] using same⟩
    · subst nonempty
      exact absurd same (titled _ _ something)
  · by_cases something : others = []
    · subst something
      exact absurd same.symm (untitled _ _ nonempty)
    · exact stageText_append_inj nonempty something first second blank empty same

/-! ### The statements of the stages -/

theorem isStatement_createTable (table : Table) : IsStatement (createTableStatement table).sql :=
  ⟨⟨_, createTable_oneStatement table⟩, 'C', by
    simp [createTableStatement, Statement.sql, Statement.lines], by decide⟩

theorem isStatement_foreignKey (member : s ∈ foreignKeyStatements table) : IsStatement s.sql := by
  obtain ⟨column, ref, -, rfl | rfl⟩ := (mem_foreignKeyStatements_iff table).mp member
  · exact ⟨⟨_, dropConstraint_oneStatement ..⟩, 'A', by
      simp [Statement.sql, Statement.lines], by decide⟩
  · exact ⟨⟨_, addForeignKey_oneStatement ..⟩, 'A',
      by simp [addForeignKeyStatement, Statement.sql, Statement.lines], by decide⟩

private theorem isStatement_index (member : s ∈ indexStatements table) : IsStatement s.sql := by
  obtain ⟨unique, name, columns, rfl⟩ := exists_of_mem_indexStatements table member
  exact ⟨⟨_, createIndex_oneStatement ..⟩, 'C', by simp [Statement.sql, Statement.lines], by decide⟩

/-- Every table has an index: without declared ones the usual names are free. -/
theorem indexStatements_ne_nil (table : Table) : indexStatements table ≠ [] := by
  intro nothing
  obtain ⟨declared, usual⟩ := List.append_eq_nil_iff.mp nothing
  rw [List.map_eq_nil_iff] at declared
  simp [declared, indexedColumns] at usual

/-! ### The script -/

section Script

variable (options : Options) (schema : Schema)

/-- The script up to the stages: the opening of the transaction and the function behind the
triggers. -/
def openingText : List Char :=
  separated ['\n'] (["", "BEGIN;", "", "-- Function to auto-update updated_at timestamp"] ++
    [(Statement.createFunction options.updatedAtFunction).sql])

/-- The script behind the indexes. -/
def closingText : List Char :=
  stageText "Enable row level security and isolation policies"
      (schema.tables.flatMap fun table => rowSecurityStatements options table.name) ++
    (stageText "Create updated_at triggers"
      (schema.tables.flatMap fun table => triggerStatements options table.name) ++
      separated ['\n'] ["", "COMMIT;", ""])

private theorem stages_ofSchema : (Compilation.ofSchema options schema).stages = [
    ("Create tables", schema.tables.map createTableStatement),
    ("Add foreign key constraints", schema.tables.flatMap foreignKeyStatements),
    ("Create indexes", schema.tables.flatMap indexStatements),
    ("Enable row level security and isolation policies",
      schema.tables.flatMap fun table => rowSecurityStatements options table.name),
    ("Create updated_at triggers", schema.tables.flatMap
      fun table => triggerStatements options table.name)] := by
  simp [Compilation.stages, Compilation.ofSchema, TableDdl.ofTable, List.flatMap_map,
    Function.comp_def]

theorem toList_text : '\n' :: (Compilation.ofSchema options schema).text.toList =
    separated ['\n'] (Compilation.ofSchema options schema).header ++ (openingText options ++
      (stageText "Create tables" (schema.tables.map createTableStatement) ++
        (stageText "Add foreign key constraints" (schema.tables.flatMap foreignKeyStatements) ++
          (stageText "Create indexes" (schema.tables.flatMap indexStatements) ++
            closingText options schema)))) := by
  have nonempty : (Compilation.ofSchema options schema).parts ≠ [] := by
    simp [Compilation.parts, Compilation.header]
  refine (toList_intercalate "\n" nonempty).trans ?_
  simp only [Compilation.parts, stages_ofSchema, List.flatMap_cons, List.flatMap_nil,
    separated_append, List.append_assoc, openingText, closingText, stageText]
  rfl

variable {options schema}

theorem flatMap_ne_nil {tables : List Table} {block : Table → List Statement}
    (nonempty : tables ≠ []) (something : ∀ table, block table ≠ []) :
    tables.flatMap block ≠ [] := by
  obtain ⟨table, rest, rfl⟩ := List.exists_cons_of_ne_nil nonempty
  rw [List.flatMap_cons]
  exact List.append_ne_nil_of_left_ne_nil (something table) _

section Blank

variable (nonempty : schema.tables ≠ [])
include nonempty

private theorem startsBlank_closing : StartsBlank (closingText options schema) :=
  startsBlank_stageText _ (flatMap_ne_nil nonempty fun _ => List.cons_ne_nil _ _) _

theorem startsBlank_indexes (after : List Char) :
    StartsBlank (stageText "Create indexes" (schema.tables.flatMap indexStatements) ++ after) :=
  startsBlank_stageText _ (flatMap_ne_nil nonempty indexStatements_ne_nil) _

private theorem startsBlank_keys (after : List Char) :
    StartsBlank (stageText "Add foreign key constraints"
      (schema.tables.flatMap foreignKeyStatements) ++
      (stageText "Create indexes" (schema.tables.flatMap indexStatements) ++ after)) := by
  by_cases keys : schema.tables.flatMap foreignKeyStatements = []
  · rw [keys]
    exact startsBlank_indexes nonempty after
  · exact startsBlank_stageText _ keys _

/-- The title tells the indexes from foreign keys. -/
theorem indexes_ne_keys (after : List Char) (statements : List Statement) (more : List Char)
    (something : statements ≠ []) :
    stageText "Create indexes" (schema.tables.flatMap indexStatements) ++ after ≠
      stageText "Add foreign key constraints" statements ++ more := by
  rw [stageText_of_ne_nil _ (flatMap_ne_nil nonempty indexStatements_ne_nil),
    stageText_of_ne_nil _ something]
  simp

end Blank

end Script

/-- The parts of a script that tell the layout of its schema. -/
theorem script_inj {options : Options} {first second : Schema} (sound : first.Sound limits)
    (other : second.Sound others)
    (same : (Compilation.ofSchema options first).text =
      (Compilation.ofSchema options second).text) :
    first.version = second.version ∧
      (first.tables.map createTableStatement).map Statement.sql =
        (second.tables.map createTableStatement).map Statement.sql ∧
      (first.tables.flatMap foreignKeyStatements).map Statement.sql =
        (second.tables.flatMap foreignKeyStatements).map Statement.sql ∧
      (first.tables.flatMap indexStatements).map Statement.sql =
        (second.tables.flatMap indexStatements).map Statement.sql := by
  have created (schema : Schema) : ∀ s ∈ schema.tables.map createTableStatement,
      IsStatement s.sql :=
    List.forall_mem_map.mpr fun table _ => isStatement_createTable table
  have keyed (schema : Schema) : ∀ s ∈ schema.tables.flatMap foreignKeyStatements,
      IsStatement s.sql :=
    List.forall_mem_flatMap.mpr fun _ _ _ inside => isStatement_foreignKey inside
  have indexed (schema : Schema) : ∀ s ∈ schema.tables.flatMap indexStatements, IsStatement s.sql :=
    List.forall_mem_flatMap.mpr fun _ _ _ inside => isStatement_index inside
  have nonempty : first.tables ≠ [] := List.ne_nil_of_length_pos sound.tableCount.1
  have something : second.tables ≠ [] := List.ne_nil_of_length_pos other.tableCount.1
  have texts := congrArg (fun text => '\n' :: text.toList) same
  simp only [toList_text] at texts
  obtain ⟨version, stages⟩ := header_append_inj (dashless_version sound.version)
    (dashless_version other.version)
    (dashless_tableNames sound options) (dashless_tableNames other options) texts
  rw [List.append_cancel_left_eq] at stages
  -- the first and the third stage are always there, the second one only where there are foreign
  -- keys
  obtain ⟨tables, fromKeys⟩ := stageText_append_inj (by simpa using nonempty)
    (by simpa using something)
    (created first) (created second) (startsBlank_keys nonempty _)
      (startsBlank_keys something _) stages
  obtain ⟨keys, fromIndexes⟩ := optional_stageText_append_inj (keyed first) (keyed second)
    (startsBlank_indexes nonempty _) (startsBlank_indexes something _) (indexes_ne_keys nonempty _)
    (indexes_ne_keys something _) fromKeys
  obtain ⟨indexes, -⟩ := stageText_append_inj (flatMap_ne_nil nonempty indexStatements_ne_nil)
    (flatMap_ne_nil something indexStatements_ne_nil) (indexed first) (indexed second)
    (startsBlank_closing nonempty) (startsBlank_closing something) fromIndexes
  exact ⟨version, tables, keys, indexes⟩

/-! ### The layout -/

/-- Statements of tables that are told by their written forms are the same where these are. -/
theorem flatMap_eq_of_sql_eq {block : Table → List Statement} {tables others : List Table}
    (tells : ∀ table other s s', s ∈ block table → s' ∈ block other → s.sql = s'.sql → s = s')
    (same : (tables.flatMap block).map Statement.sql = (others.flatMap block).map Statement.sql) :
    tables.flatMap block = others.flatMap block := by
  have equal := map_eq_map_of_forall (g := id) (fun s member s' listed written => by
    obtain ⟨table, -, inside⟩ := List.mem_flatMap.mp member
    obtain ⟨other, -, there⟩ := List.mem_flatMap.mp listed
    exact tells table other s s' inside there written) same
  simpa using equal

/-- Equal scripts are scripts of equal layouts. -/
theorem layout_of_text_eq {options : Options} {first second : Schema} (sound : first.Sound limits)
    (other : second.Sound others)
    (same : (Compilation.ofSchema options first).text =
      (Compilation.ofSchema options second).text) :
    first.layout = second.layout := by
  obtain ⟨version, tables, keys, indexes⟩ := script_inj sound other same
  have keyed := flatMap_eq_of_sql_eq (fun _ _ _ _ => foreignKeyStatement_of_sql_eq) keys
  have indexed := flatMap_eq_of_sql_eq (fun _ _ _ _ => indexStatement_of_sql_eq) indexes
  rw [List.map_map, List.map_map] at tables
  have layouts :=
    map_eq_map_of_forall (g := Table.layout) (fun table member another listed created => by
    have nonempty : table.columns ≠ [] :=
      List.ne_nil_of_length_pos (sound.columnCount table member).1
    have something : another.columns ≠ [] :=
      List.ne_nil_of_length_pos (other.columnCount another listed).1
    obtain ⟨name, -⟩ := columnWords_of_createTable_sql nonempty something created
    -- tables have different names, so the statements of one table can be picked out of a stage
    refine layout_eq (sound.names table member).distinct nonempty something created ?_ ?_
    · rw [← filter_blocks foreignKeyStatements_table? sound.tableNames member, keyed, name]
      exact filter_blocks foreignKeyStatements_table? other.tableNames listed
    · rw [← filter_blocks indexStatements_table? sound.tableNames member, indexed, name]
      exact filter_blocks indexStatements_table? other.tableNames listed) tables
  rw [Schema.layout, Schema.layout, version, layouts]

section Converse

variable {table other : Table} (same : table.layout = other.layout)
include same

private theorem createTable_sql_of_layout_eq :
    (createTableStatement table).sql = (createTableStatement other).sql := by
  obtain ⟨name, columns, -⟩ := TableLayout.mk.inj same
  have clauses := map_eq_map_of_forall (g := fun column =>
    "  " ++ (ColumnClause.ofColumn column).sql)
    (fun one _ another _ equal => by rw [sql_ofColumn, sql_ofColumn, equal]) columns
  simp only [createTableStatement, Statement.sql, Statement.lines, List.map_map,
    Function.comp_def, name, clauses]

private theorem foreignKeyStatements_of_layout_eq :
    foreignKeyStatements table = foreignKeyStatements other := by
  obtain ⟨name, columns, -⟩ := TableLayout.mk.inj same
  have keys (columns : List Column) : keysOf columns =
      (columns.map Column.layout).filterMap fun column =>
        column.reference?.map (column.name, ·) := by
    rw [List.filterMap_map]
    rfl
  rw [foreignKeyStatements_eq, foreignKeyStatements_eq, name, keys, keys, columns]

end Converse

private theorem stageText_congr {statements others : List Statement} (title : String)
    (same : statements.map Statement.sql = others.map Statement.sql) :
    stageText title statements = stageText title others := by
  have empty : statements.isEmpty = others.isEmpty := by
    rw [← List.isEmpty_map (f := Statement.sql), same, List.isEmpty_map]
  simp only [stageText, Compilation.stageParts, empty, same]

private theorem text_of_layout_eq (options : Options) {first second : Schema}
    (same : first.layout = second.layout) :
    (Compilation.ofSchema options first).text = (Compilation.ofSchema options second).text := by
  obtain ⟨version, tables⟩ := SchemaLayout.mk.inj same
  have flat {block : Table → List Statement}
      (tells : ∀ table other : Table, table.layout = other.layout → block table = block other) :
      first.tables.flatMap block = second.tables.flatMap block := by
    rw [List.flatMap_def, List.flatMap_def,
      map_eq_map_of_forall (fun table _ other _ equal => tells table other equal) tables]
  have names := map_eq_map_of_forall (g := Table.name)
    (fun _ _ _ _ equal => (TableLayout.mk.inj equal).1) tables
  have created : (first.tables.map createTableStatement).map Statement.sql =
      (second.tables.map createTableStatement).map Statement.sql := by
    rw [List.map_map, List.map_map]
    exact map_eq_map_of_forall (fun _ _ _ _ equal => createTable_sql_of_layout_eq equal) tables
  have header : (Compilation.ofSchema options first).header =
      (Compilation.ofSchema options second).header := by
    simp only [Compilation.header, Compilation.tableNames, Compilation.ofSchema, List.map_map,
      Function.comp_def, TableDdl.ofTable, version, names]
  have closing : closingText options first = closingText options second := by
    rw [closingText, closingText,
      flat fun table other equal => by rw [(TableLayout.mk.inj equal).1],
      flat fun table other equal => by rw [(TableLayout.mk.inj equal).1]]
  have texts : '\n' :: (Compilation.ofSchema options first).text.toList =
      '\n' :: (Compilation.ofSchema options second).text.toList := by
    rw [toList_text, toList_text, header, stageText_congr _ created, closing,
      flat fun table other equal => foreignKeyStatements_of_layout_eq equal,
      flat fun table other equal => (TableLayout.mk.inj equal).2.2]
  exact String.toList_inj.mp (List.cons.inj texts).2

end Ddl

/-- The script of a compilation is the name of a layout: two schemas that pass the rules compile to
one script exactly when they have one version and the same tables in the same order, with the same
columns, foreign keys and indexes. -/
theorem text_eq_iff_layout_eq (limits others : Limits) (options : Options) (first second : Schema)
    (passed : (validate (.schema first) limits).passed = true)
    (accepted : (validate (.schema second) others).passed = true) :
    ∃ c d, compile limits options first = .ok c ∧ compile others options second = .ok d ∧
      (c.text = d.text ↔ first.layout = second.layout) := by
  have passes : first.passes limits = true := passed
  have accepts : second.passes others = true := accepted
  exact ⟨_, _, if_pos passes, if_pos accepts,
    layout_of_text_eq ((first.passes_iff limits).mp passes) ((second.passes_iff others).mp accepts),
    text_of_layout_eq options⟩

/-- The title of a company is not unique here, but its default ends in what a unique column would
have. -/
def Schema.disguised : Schema :=
  { Schema.deals with
    tables := Schema.deals.tables.map fun table =>
      { table with
        columns := table.columns.map fun column =>
          if column.name = "title" then
            { column with default? := some "unnamed' UNIQUE", unique := false }
          else column } }

set_option maxRecDepth 100000 in
theorem Schema.disguised_passed : (validate (.schema disguised) .standard).passed = true := by
  decide +kernel

/-- The two scripts differ. -/
theorem disguised_text_ne : (validate (.schema .deals) .standard).passed = true ∧
    (validate (.schema .disguised) .standard).passed = true ∧
    ∃ c d, compile .standard .standard .deals = .ok c ∧
      compile .standard .standard .disguised = .ok d ∧
      c.text ≠ d.text := by
  have passed := Schema.deals_passed
  have accepted := Schema.disguised_passed
  obtain ⟨c, d, compiled, written, same⟩ :=
    text_eq_iff_layout_eq .standard .standard .standard .deals .disguised passed accepted
  have differ : Schema.deals.layout ≠ Schema.disguised.layout := by decide +kernel
  exact ⟨passed, accepted, c, d, compiled, written, mt same.mp differ⟩

end Schemata
