import Schemata.Rules.Validation
import Schemata.Proofs.Rules.Names
import Schemata.Proofs.Rules.References

/-! What the rules demand of a schema, clause by clause and without the checks: a schema passes
exactly when it is sound. -/

namespace Schemata

namespace ColumnType

theorem isNumeric_iff (type : ColumnType) :
    type.isNumeric = true ↔ type = .integer ∨ type = .bigint ∨ type = .numeric := by
  cases type <;> simp [isNumeric]

theorem isTemporal_iff (type : ColumnType) :
    type.isTemporal = true ↔ type = .timestamp ∨ type = .timestamptz ∨ type = .date := by
  cases type <;> simp [isTemporal]

theorem isTimestamp_iff (type : ColumnType) :
    type.isTimestamp = true ↔ type = .timestamp ∨ type = .timestamptz := by
  cases type <;> simp [isTimestamp]

end ColumnType

/-- The kinds of default that a column of some type may have. -/
def Column.Admits (column : Column) : Sql.DefaultValue → Prop
  | .expression .null => column.nullable = true
  | .expression .generatedUuid => column.type = .uuid
  | .expression _ => column.type = .timestamp ∨ column.type = .timestamptz ∨ column.type = .date
  | .boolean _ => column.type = .boolean
  | .number _ => column.type ≠ .boolean
  | .string text => column.type ∉ [.boolean, .integer, .bigint, .numeric] ∧ text.length ≤ 255

/-- The default of a column, if it has one, is of a kind that the column may have. -/
@[mk_iff]
structure Column.DefaultFits (column : Column) : Prop where
  admitted : ∀ raw, column.default? = some raw → column.Admits (Sql.DefaultValue.classify raw)

/-- A required point in time. -/
def Column.IsStamp (column : Column) : Prop :=
  column.nullable = false ∧ (column.type = .timestamp ∨ column.type = .timestamptz)

/-- The audit columns are there in their form, and the primary key is one of them. -/
@[mk_iff]
structure Table.Audited (table : Table) : Prop where
  id : ∃ column ∈ table.columns, column.name = "id" ∧ column.primaryKey = true ∧ column.type = .uuid
  user : ∃ column ∈ table.columns,
    column.name = "user_id" ∧ column.nullable = false ∧ column.type = .uuid
  created : ∃ column ∈ table.columns, column.name = "created_at" ∧ column.IsStamp
  updated : ∃ column ∈ table.columns, column.name = "updated_at" ∧ column.IsStamp
  primary : ∀ column ∈ table.columns, column.primaryKey = true → column.name = "id"

/-- Every index lists columns, and columns of its own table only. -/
def Table.Indexed (table : Table) : Prop :=
  ∀ index ∈ table.indexes, index.columns ≠ [] ∧ ∀ name ∈ index.columns, name ∈ table.columnNames

namespace Schema

/-- A table of that name has a column of that name. -/
def HasColumn (schema : Schema) (name column : String) : Prop :=
  ∃ table ∈ schema.tables, table.name = name ∧ column ∈ table.columnNames

/-- Foreign keys and relationships point at columns that exist. -/
@[mk_iff]
structure Linked (schema : Schema) : Prop where
  foreignKeys : ∀ table ∈ schema.tables, ∀ column ∈ table.columns, ∀ ref,
    column.reference? = some ref → schema.HasColumn ref.table ref.column
  starts : ∀ r ∈ schema.relationships, schema.HasColumn r.fromTable r.fromColumn
  targets : ∀ r ∈ schema.relationships, schema.HasColumn r.toTable r.toColumn

/-- A schema within its limits, with proper names, audit columns, references, indexes and
defaults. -/
structure Sound (limits : Limits) (schema : Schema) : Prop where
  version : IsVersion schema.version
  tableCount : 1 ≤ schema.tables.length ∧ (schema.tables.length : Int) ≤ limits.tables
  columnCount : ∀ table ∈ schema.tables,
    1 ≤ table.columns.length ∧ (table.columns.length : Int) ≤ limits.columns
  names : ∀ table ∈ schema.tables, table.NamesFit limits
  tableNames : schema.tableNames.Nodup
  indexNames : (schema.tables.flatMap Table.indexNames).Nodup
  unreserved : ∀ table ∈ schema.tables, Text.lower table.name ∉ reservedWords ∧
    ∀ name ∈ table.columnNames, Text.lower name ∉ reservedWords
  audited : ∀ table ∈ schema.tables, table.Audited
  linked : schema.Linked
  indexed : ∀ table ∈ schema.tables, table.Indexed
  acyclic : Acyclic schema.Refers
  shallow : ∀ name ∈ schema.tableNames, ∀ steps goal, Walk schema.Refers steps name goal →
    (steps : Int) ≤ limits.depth
  defaults : ∀ table ∈ schema.tables, ∀ column ∈ table.columns, column.DefaultFits

end Schema

/-! ### Counts -/

private theorem countViolations_iff {limit : Int} {values : List α} {none many : Violation} :
    (if values.isEmpty then [none]
      else if limit < values.length then [many] else []) = [] ↔
      1 ≤ values.length ∧ (values.length : Int) ≤ limit := by
  cases values with
  | nil => simp
  | cons value rest => simp

/-- Counts, version and depth are reported exactly when one of them is out of bounds. -/
theorem structureViolations_eq_nil_iff (schema : Schema) (limits : Limits) :
    structureViolations schema limits = [] ↔
      IsVersion schema.version ∧
      (1 ≤ schema.tables.length ∧ (schema.tables.length : Int) ≤ limits.tables) ∧
      (∀ table ∈ schema.tables,
        1 ≤ table.columns.length ∧ (table.columns.length : Int) ≤ limits.columns) ∧
      depthViolations schema limits = [] := by
  simp only [structureViolations, List.append_eq_nil_iff, tableCountViolations,
    columnCountViolations, countViolations_iff, List.flatMap_eq_nil_iff, ite_eq_left_iff,
    List.cons_ne_nil, imp_false, not_not, isVersionText_iff, and_assoc]

/-! ### Audit columns -/

@[simp]
theorem violationUnless_eq_nil_iff (holds : Bool) (violation : Violation) :
    violationUnless holds violation = [] ↔ holds = true := by
  cases holds <;> simp [violationUnless]

namespace Table

variable {table : Table} {name : String}

theorem column?_eq_some_iff (distinct : table.columnNames.Nodup) :
    table.column? name = some column ↔ column ∈ table.columns ∧ column.name = name :=
  Keyed.find?_eq_some_iff distinct

theorem column?_isSome_iff : (table.column? name).isSome = true ↔ name ∈ table.columnNames := by
  simp [column?, columnNames]

/-- With distinct names, a check of the first column of a name is a check of the column of that
name. -/
private theorem checked_iff (distinct : table.columnNames.Nodup) (name : String)
    (check : Column → List Violation) :
    (table.column? name).isNone = false ∧ ofFirstColumn table name check = [] ↔
      ∃ column ∈ table.columns, column.name = name ∧ check column = [] := by
  constructor
  · rintro ⟨present, quiet⟩
    obtain ⟨column, found⟩ := Option.isSome_iff_exists.mp (by simpa using present)
    obtain ⟨member, same⟩ := (column?_eq_some_iff distinct).mp found
    exact ⟨column, member, same, by simpa [ofFirstColumn, found] using quiet⟩
  · rintro ⟨column, member, same, quiet⟩
    have found := (column?_eq_some_iff distinct).mpr ⟨member, same⟩
    simp [ofFirstColumn, found, quiet]

theorem tableAuditViolations_eq_nil_iff (distinct : table.columnNames.Nodup) :
    tableAuditViolations table = [] ↔ table.Audited := by
  have present : (auditNames.filter fun name => (table.column? name).isNone).map
      (Violation.missingAudit table.name) = [] ↔
        (table.column? "id").isNone = false ∧ (table.column? "user_id").isNone = false ∧
        (table.column? "created_at").isNone = false ∧
          (table.column? "updated_at").isNone = false := by
    simp [List.filter_eq_nil_iff, auditNames, Option.isSome_iff_ne_none]
  have primary : (table.columns.flatMap fun column => violationUnless
      (!column.primaryKey || column.name == "id") (.strayPrimary table.name column.name)) = [] ↔
        ∀ column ∈ table.columns, column.primaryKey = true → column.name = "id" := by
    simp [List.flatMap_eq_nil_iff, imp_iff_not_or]
  have id := checked_iff distinct "id" (idViolations table)
  have user := checked_iff distinct "user_id" (userIdViolations table)
  have created := checked_iff distinct "created_at" (timestampViolations table "created_at")
  have updated := checked_iff distinct "updated_at" (timestampViolations table "updated_at")
  simp only [idViolations, userIdViolations, timestampViolations, List.append_eq_nil_iff,
    violationUnless_eq_nil_iff, beq_iff_eq, Bool.not_eq_true', ColumnType.isTimestamp_iff]
    at id user created updated
  simp only [tableAuditViolations, List.append_eq_nil_iff, present, primary, audited_iff,
    Column.IsStamp, ← id, ← user, ← created, ← updated]
  constructor
  · rintro ⟨⟨⟨⟨⟨⟨hasId, hasUser, hasCreated, hasUpdated⟩, id⟩, user⟩, created⟩, updated⟩, primary⟩
    exact ⟨⟨hasId, id⟩, ⟨hasUser, user⟩, ⟨hasCreated, created⟩, ⟨hasUpdated, updated⟩, primary⟩
  · rintro ⟨⟨hasId, id⟩, ⟨hasUser, user⟩, ⟨hasCreated, created⟩, ⟨hasUpdated, updated⟩, primary⟩
    exact ⟨⟨⟨⟨⟨⟨hasId, hasUser, hasCreated, hasUpdated⟩, id⟩, user⟩, created⟩, updated⟩, primary⟩

end Table

/-! ### References, indexes and relationships -/

namespace Schema

variable {schema : Schema}

theorem lastTable?_eq_some_iff (distinct : schema.tableNames.Nodup) :
    schema.lastTable? name = some table ↔ table ∈ schema.tables ∧ table.name = name :=
  Keyed.find?_reverse_eq_some_iff distinct

/-- With distinct names, the last table of a name decides which columns there are. -/
theorem hasColumn_iff (distinct : schema.tableNames.Nodup) :
    schema.HasColumn name column ↔
      ∃ table, schema.lastTable? name = some table ∧ (table.column? column).isSome = true := by
  simp only [HasColumn, lastTable?_eq_some_iff distinct, Table.column?_isSome_iff, and_assoc]

theorem foreignKeyViolations_eq_nil_iff (distinct : schema.tableNames.Nodup) (table : Table)
    (column : Column) (ref : Reference) :
    foreignKeyViolations schema table column ref = [] ↔ schema.HasColumn ref.table ref.column := by
  rw [hasColumn_iff distinct, foreignKeyViolations]
  cases schema.lastTable? ref.table <;> simp [Option.isSome_iff_ne_none]

theorem sideViolations_eq_nil_iff (distinct : schema.tableNames.Nodup)
    (position : Nat) (side : Side) (name column : String) :
    sideViolations schema position side name column = [] ↔ schema.HasColumn name column := by
  rw [hasColumn_iff distinct, sideViolations]
  cases schema.lastTable? name <;> simp [Option.isSome_iff_ne_none]

theorem indexViolations_eq_nil_iff (table : Table) (index : Index) :
    indexViolations table index = [] ↔
      index.columns ≠ [] ∧ ∀ name ∈ index.columns, name ∈ table.columnNames := by
  simp [indexViolations, List.filter_eq_nil_iff]

/-- References, indexes and relationships are reported exactly when one points at nothing. -/
theorem integrityViolations_eq_nil_iff (distinct : schema.tableNames.Nodup) :
    integrityViolations schema = [] ↔
      schema.Linked ∧ ∀ table ∈ schema.tables, table.Indexed := by
  simp only [integrityViolations, relationshipViolations, List.append_eq_nil_iff,
    List.flatMap_eq_nil_iff, Prod.forall, Table.mem_foreignKeys_iff,
    foreignKeyViolations_eq_nil_iff distinct, sideViolations_eq_nil_iff distinct,
    indexViolations_eq_nil_iff, linked_iff, Table.Indexed]
  constructor
  · rintro ⟨tables, sides⟩
    have linked : ∀ r ∈ schema.relationships,
        schema.HasColumn r.fromTable r.fromColumn ∧ schema.HasColumn r.toTable r.toColumn := by
      intro r member
      obtain ⟨position, inside, same⟩ := List.mem_iff_getElem.mp member
      exact sides r position (List.mem_zipIdx_iff_getElem?.mpr (by simp [inside, same]))
    have keys : ∀ table ∈ schema.tables, ∀ column ∈ table.columns, ∀ ref,
        column.reference? = some ref → schema.HasColumn ref.table ref.column :=
      fun table member column inside ref found => (tables table member).1 column ref ⟨inside, found⟩
    exact ⟨⟨keys, fun r member => (linked r member).1, fun r member => (linked r member).2⟩,
      fun table member => (tables table member).2⟩
  · rintro ⟨⟨foreignKeys, starts, targets⟩, indexed⟩
    refine ⟨fun table member => ⟨?_, indexed table member⟩, fun r position listed => ?_⟩
    · rintro column ref ⟨inside, found⟩
      exact foreignKeys table member column inside ref found
    · have member := List.fst_mem_of_mem_zipIdx listed
      exact ⟨starts r member, targets r member⟩

end Schema

/-! ### Defaults -/

theorem defaultProblem?_eq_none_iff (column : Column) (raw : String) :
    defaultProblem? column raw = none ↔ column.Admits (Sql.DefaultValue.classify raw) := by
  unfold defaultProblem?
  split <;> rename_i value classified <;> rw [classified]
  · cases value <;> simp only [expressionProblem?, Column.Admits, ite_eq_left_iff, reduceCtorEq,
      imp_false, not_not, ColumnType.isTemporal_iff]
  · rw [Column.Admits]
    split
    · simp_all
    · split <;> simp_all
  · rw [Column.Admits]
    split <;> simp_all
  · have plain : column.type ∉ [.boolean, .integer, .bigint, .numeric] ↔
        column.type ≠ .boolean ∧ ¬ column.type.isNumeric = true := by
      simp [ColumnType.isNumeric_iff]
    rw [Column.Admits, plain]
    split
    · simp_all
    · split
      · simp_all
      · split <;> simp_all [maxDefaultLength]

theorem defaultViolations_eq_nil_iff (schema : Schema) :
    defaultViolations schema = [] ↔
      ∀ table ∈ schema.tables, ∀ column ∈ table.columns, column.DefaultFits := by
  simp [defaultViolations, List.flatMap_eq_nil_iff, List.filterMap_eq_nil_iff,
    defaultProblem?_eq_none_iff, Column.defaultFits_iff]

/-! ### All rules -/

/-- A schema passes the rules exactly when it is sound. -/
theorem violations_eq_nil_iff (schema : Schema) (limits : Limits) :
    schema.violations limits = [] ↔ schema.Sound limits := by
  have rules : schema.violations limits = [] ↔
      structureViolations schema limits = [] ∧ namingViolations schema limits = [] ∧
      reservedNameViolations schema = [] ∧ auditViolations schema = [] ∧
      integrityViolations schema = [] ∧ cycleViolations schema = [] ∧
      defaultViolations schema = [] := by
    simp only [Schema.violations, List.append_eq_nil_iff, and_assoc]
  rw [rules, structureViolations_eq_nil_iff, namingViolations_eq_nil_iff,
    reservedNameViolations_eq_nil_iff, defaultViolations_eq_nil_iff]
  constructor
  · rintro ⟨⟨version, tables, columns, depth⟩, ⟨names, distinct, indexes⟩, unreserved, audit,
      integrity, cycles, defaults⟩
    obtain ⟨linked, indexed⟩ := (Schema.integrityViolations_eq_nil_iff distinct).mp integrity
    have acyclic := (Schema.cycleViolations_eq_nil_iff distinct).mp cycles
    have audited : ∀ table ∈ schema.tables, table.Audited := by
      intro table member
      have quiet := List.flatMap_eq_nil_iff.mp audit table member
      exact (Table.tableAuditViolations_eq_nil_iff (names table member).distinct).mp quiet
    have shallow := (Schema.depthViolations_eq_nil_iff distinct acyclic limits).mp depth
    exact ⟨version, tables, columns, names, distinct, indexes, unreserved, audited, linked, indexed,
      acyclic, shallow, defaults⟩
  · intro sound
    have distinct := sound.tableNames
    have audit : auditViolations schema = [] := by
      refine List.flatMap_eq_nil_iff.mpr fun table member => ?_
      exact (Table.tableAuditViolations_eq_nil_iff (sound.names table member).distinct).mpr
        (sound.audited table member)
    have integrity := (Schema.integrityViolations_eq_nil_iff distinct).mpr
      ⟨sound.linked, sound.indexed⟩
    have cycles := (Schema.cycleViolations_eq_nil_iff distinct).mpr sound.acyclic
    have depth :=
      (Schema.depthViolations_eq_nil_iff distinct sound.acyclic limits).mpr sound.shallow
    exact ⟨⟨sound.version, sound.tableCount, sound.columnCount, depth⟩,
      ⟨sound.names, distinct, sound.indexNames⟩, sound.unreserved, audit, integrity, cycles,
      sound.defaults⟩

theorem Schema.passes_iff (schema : Schema) (limits : Limits) :
    schema.passes limits = true ↔ schema.Sound limits := by
  rw [Schema.passes, List.isEmpty_iff, violations_eq_nil_iff]

private theorem validate_cases (candidate : Candidate) (limits : Limits) :
    (∃ schema, validate candidate limits = ⟨some schema, schema.violations limits⟩) ∨
    ∃ violations, validate candidate limits = ⟨none, violations⟩ := by
  cases candidate with
  | schema schema => exact .inl ⟨schema, rfl⟩
  | raw value =>
    cases shape : checkShape value with
    | ok schema => exact .inl ⟨schema, by simp [validate, shape]⟩
    | error violations => exact .inr ⟨violations, by simp [validate, shape]⟩

/-- What is accepted of a candidate, raw or not, is a schema that passes the rules. -/
theorem passes_of_accepted (accepted : (validate candidate limits).accepted? = some schema) :
    schema.passes limits = true := by
  rcases validate_cases candidate limits with ⟨settled, judged⟩ | ⟨violations, judged⟩
  · rw [judged] at accepted
    obtain ⟨passed, same⟩ := Option.ite_none_right_eq_some.mp accepted
    exact Option.some.inj same ▸ passed
  · rw [judged] at accepted
    simp [Validation.accepted?] at accepted

/-- The verdict on a schema is exact: it is passed when it is sound and only then. -/
theorem validate_passed_iff_sound (schema : Schema) (limits : Limits) :
    (validate (.schema schema) limits).passed = true ↔ schema.Sound limits :=
  schema.passes_iff limits

/-- Deals point at companies, which are declared after them. -/
def Schema.deals : Schema where
  version := "1.0.0"
  tables := [
    { name := "deal"
      columns := auditColumns ++
        [⟨"company_id", .uuid, false, none, false, false, some ⟨"company", "id", .cascade⟩⟩]
      indexes := [⟨"deal_company", ["company_id"], false⟩]
      hints := .none },
    { name := "company"
      columns := auditColumns ++ [⟨"title", .text, true, some "unnamed", true, false, none⟩]
      indexes := []
      hints := .none }]
  relationships := [⟨"deal", "company_id", "company", "id", .manyToOne⟩]

set_option maxRecDepth 100000 in
theorem Schema.deals_passed : (validate (.schema deals) .standard).passed = true := by
  decide +kernel

end Schemata
