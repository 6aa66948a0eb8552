import Schemata.Rules.Validation

/-! Hints and the rules. No rule looks into hints: with any hints in place of its own a schema has
the same violations. -/

namespace Schemata

/-- A table with hints in place of its own. -/
def Table.withHints (table : Table) (hints : Hints) : Table := { table with hints }

/-- A schema with the same hints on every table. -/
def Schema.withHints (schema : Schema) (hints : Hints) : Schema :=
  { schema with tables := schema.tables.map (·.withHints hints) }

section

variable (schema : Schema) (hints : Hints) (limits : Limits)

namespace Schema

theorem map_withHints {look : Table → α} (blind : ∀ table,
    look (table.withHints hints) = look table) :
    (schema.withHints hints).tables.map look = schema.tables.map look := by
  rw [withHints, List.map_map]
  exact List.map_congr_left fun table _ => blind table

theorem flatMap_withHints {look : Table → List α}
    (blind : ∀ table, look (table.withHints hints) = look table) :
    (schema.withHints hints).tables.flatMap look = schema.tables.flatMap look := by
  rw [List.flatMap_def, List.flatMap_def, map_withHints schema hints blind]

private theorem tableNames_withHints : (schema.withHints hints).tableNames = schema.tableNames :=
  schema.map_withHints hints fun _ => rfl

theorem referenceGraph_withHints : (schema.withHints hints).referenceGraph =
    schema.referenceGraph := by
  rw [referenceGraph, tableNames_withHints]
  exact congrArg Keyed.ofList (schema.map_withHints hints fun _ => rfl)

private theorem lastTable?_withHints (name : String) : (schema.withHints hints).lastTable? name =
    (schema.lastTable? name).map (·.withHints hints) := by
  rw [lastTable?, withHints, ← List.map_reverse, List.find?_map]
  rfl

end Schema

private theorem structureViolations_withHints :
    structureViolations (schema.withHints hints) limits = structureViolations schema limits := by
  have count : tableCountViolations (schema.withHints hints) limits =
      tableCountViolations schema limits := by
    simp only [tableCountViolations, Schema.withHints, List.isEmpty_map, List.length_map]
  have columns : (schema.withHints hints).tables.flatMap (columnCountViolations limits) =
      schema.tables.flatMap (columnCountViolations limits) :=
        schema.flatMap_withHints hints fun _ => rfl
  rw [structureViolations, count, columns, depthViolations, schema.referenceGraph_withHints]
  rfl

private theorem namingViolations_withHints :
    namingViolations (schema.withHints hints) limits = namingViolations schema limits := by
  have onward : ∀ (tables : List Table) (seenTables seenIndexes : List String),
      namingFrom limits seenTables seenIndexes (tables.map (·.withHints hints)) =
        namingFrom limits seenTables seenIndexes tables := by
    intro tables
    induction tables with
    | nil => exact fun _ _ => rfl
    | cons table rest ih =>
      intro seenTables seenIndexes
      rw [List.map_cons, namingFrom, namingFrom, ih]
      rfl
  exact onward schema.tables [] []

private theorem integrityViolations_withHints :
    integrityViolations (schema.withHints hints) = integrityViolations schema := by
  have keys : foreignKeyViolations (schema.withHints hints) = foreignKeyViolations schema := by
    funext table column ref
    simp only [foreignKeyViolations, schema.lastTable?_withHints hints]
    cases schema.lastTable? ref.table <;> rfl
  have sides : sideViolations (schema.withHints hints) = sideViolations schema := by
    funext position side name column
    simp only [sideViolations, schema.lastTable?_withHints hints]
    cases schema.lastTable? name <;> rfl
  have relationships : relationshipViolations (schema.withHints hints) =
      relationshipViolations schema := by
    funext position r
    rw [relationshipViolations, sides, relationshipViolations]
  rw [integrityViolations, keys, relationships, schema.flatMap_withHints hints fun _ => rfl]
  rfl

/-- No rule looks into hints. -/
theorem Schema.violations_withHints :
    (schema.withHints hints).violations limits = schema.violations limits := by
  have reserved : reservedNameViolations (schema.withHints hints) = reservedNameViolations schema :=
    schema.flatMap_withHints hints fun _ => rfl
  have audit : auditViolations (schema.withHints hints) = auditViolations schema :=
    schema.flatMap_withHints hints fun _ => rfl
  have cycles : cycleViolations (schema.withHints hints) = cycleViolations schema := by
    rw [cycleViolations, schema.referenceGraph_withHints, cycleViolations]
  have defaults : defaultViolations (schema.withHints hints) = defaultViolations schema :=
    schema.flatMap_withHints hints fun _ => rfl
  rw [Schema.violations, structureViolations_withHints, namingViolations_withHints, reserved, audit,
    integrityViolations_withHints, cycles, defaults, Schema.violations]

end

end Schemata
