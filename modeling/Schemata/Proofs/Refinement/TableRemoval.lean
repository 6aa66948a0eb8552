import Schemata.Proofs.Refinement.Forms
import Schemata.Proofs.Rules.Parts

/-! Tables that are deleted. A table that no other one points at goes with its relationships, and
what is left passes the rules. -/

namespace Schemata

open Edit

variable {schema : Schema} {limits : Limits} {table : Table} {name target column : String}

/-- A schema without the tables of a name and the relationships with an end in them. -/
def Schema.withoutTable (schema : Schema) (name : String) : Schema :=
  { schema with
    tables := schema.tables.filter fun table => table.name ≠ name
    relationships := schema.relationships.filter fun r => r.fromTable ≠ name ∧ r.toTable ≠ name }

namespace Schema

/-- The change that deletes a table makes the schema without that table. -/
theorem revise_withoutTable (writable : schema.isWritable = true) (member : table ∈ schema.tables) :
    schema.revise [.deleteTable (.str table.name)] =
      .ok (schema.withoutTable table.name).settled := by
  have holds := holds_members schema
  have tables : keepRows (fun row => !(row.member "name").same (.str table.name))
      (schema.tables.map (Table.toJson .omitted)) =
        .ok ((schema.withoutTable table.name).tables.map (Table.toJson .omitted)) :=
    keepRows_map isObject_table fun other =>
      by simp [member_name_table, Json.same_str, beq_eq_decide]
  have links : keepRows (fun row => !((row.member "from_table").same (.str table.name) ||
      (row.member "to_table").same (.str table.name)))
        (schema.relationships.map Relationship.toJson) =
        .ok ((schema.withoutTable table.name).relationships.map Relationship.toJson) := by
    refine keepRows_map (fun _ => rfl) fun r => ?_
    have ends : r.toJson.member "from_table" = .str r.fromTable ∧ r.toJson.member "to_table" =
        .str r.toTable :=
      ⟨rfl, rfl⟩
    simp [ends, Json.same_str, beq_eq_decide]
  have found := exists_findNamed_map isObject_table member_name_table member
  exact revise_singleton_iff.mpr ⟨writable, _,
    (deleteTable_eq_ok_iff holds).mpr ⟨found, _, _, tables, links, rfl⟩,
    Holds.read ((holds.putTables _).putRelationships _) rfl⟩

private theorem withoutTable_partOf (schema : Schema) (name : String) :
    (schema.withoutTable name).PartOf schema where
  version := rfl
  tables :=
    List.sublistForall₂_iff.mpr ⟨_, List.forall₂_same.mpr fun table _ =>
    .refl table, List.filter_sublist⟩

theorem HasColumn.withoutTable (there : schema.HasColumn target column) (other : target ≠ name) :
    (schema.withoutTable name).HasColumn target column := by
  obtain ⟨table, member, rfl, listed⟩ := there
  exact ⟨table, List.mem_filter.mpr ⟨member, decide_eq_true other⟩, rfl, listed⟩

theorem exists_other (distinct : schema.tableNames.Nodup) (several : 2 ≤ schema.tables.length)
    (name : String) :
    ∃ table ∈ schema.tables, table.name ≠ name := by
  match tables : schema.tables, several with
  | first :: second :: rest, _ =>
    rw [tableNames, tables, List.map_cons, List.map_cons] at distinct
    have apart : first.name ≠ second.name := fun same => by simp [same] at distinct
    by_cases here : first.name = name
    · exact ⟨second, by simp, fun same => apart (here.trans same.symm)⟩
    · exact ⟨first, by simp, here⟩

/-- Without one of its tables that no other table points at, a sound schema of several tables is
sound. -/
theorem Sound.withoutTable (sound : schema.Sound limits) (several : 2 ≤ schema.tables.length)
    (free : ∀ other ∈ schema.tables, other.name ≠ name → ∀ column ∈ other.columns, ∀ ref,
      column.reference? = some ref → ref.table ≠ name) :
        (schema.withoutTable name).Sound limits := by
  obtain ⟨other, there, apart⟩ := exists_other sound.tableNames several name
  have left : other ∈ (schema.withoutTable name).tables :=
    List.mem_filter.mpr ⟨there, decide_eq_true apart⟩
  refine sound.of_partOf (schema.withoutTable_partOf name) (List.ne_nil_of_mem left) ⟨?_, ?_, ?_⟩ ?_
  · intro table member column inside ref found
    obtain ⟨member, other⟩ := List.mem_filter.mp member
    exact (sound.linked.foreignKeys table member column inside ref found).withoutTable
      (free table member (of_decide_eq_true other) column inside ref found)
  · intro r member
    obtain ⟨member, apart⟩ := List.mem_filter.mp member
    exact (sound.linked.starts r member).withoutTable (of_decide_eq_true apart).1
  · intro r member
    obtain ⟨member, apart⟩ := List.mem_filter.mp member
    exact (sound.linked.targets r member).withoutTable (of_decide_eq_true apart).2
  · exact fun table member => sound.indexed table (List.mem_filter.mp member).1

/-- A table of an accepted schema that no other table points at can be deleted, unless it is the
only one: what is left is accepted and has the other tables, but for hints of other names that are
`null`, and the relationships between them. -/
theorem revise_deleteTable (passed : (validate (.schema schema) limits).passed = true)
    (several : 2 ≤ schema.tables.length) (member : table ∈ schema.tables)
    (free : ∀ other ∈ schema.tables, other.name ≠ table.name → ∀ column ∈ other.columns, ∀ ref,
      column.reference? = some ref → ref.table ≠ table.name)
    (writable : schema.isWritable = true) :
    ∃ revised, schema.revise [.deleteTable (.str table.name)] = .ok revised ∧
      (validate (.schema revised) limits).passed = true ∧ revised.version = schema.version ∧
      revised.tables = (schema.tables.filter fun other => other.name ≠ table.name).map
        Table.settled ∧
      revised.relationships =
        (schema.relationships.filter fun r => r.fromTable ≠ table.name ∧ r.toTable ≠ table.name) ∧
      ((∀ other ∈ schema.tables, ∀ extra ∈ other.hints.extras, extra.2 ≠ .null) →
        revised.tables = schema.tables.filter fun other => other.name ≠ table.name) := by
  -- the rules do not look into hints, so what is left is judged before the empty ones are dropped
  have sound := ((schema.passes_iff limits).mp passed).withoutTable several free
  have accepted : (schema.withoutTable table.name).settled.passes limits = true := by
    rw [passes_settled]
    exact (passes_iff _ limits).mpr sound
  refine ⟨_, revise_withoutTable writable member, accepted, rfl, rfl, rfl, fun clear => ?_⟩
  have settled : (schema.withoutTable table.name).settled = schema.withoutTable table.name :=
    settled_eq_iff.mpr fun other kept => clear other (List.mem_filter.mp kept).1
  rw [settled]
  rfl

theorem vagueDeals_passed : (validate (.schema vagueDeals) .standard).passed = true := by
  have same : vagueDeals.violations .standard = deals.violations .standard :=
    violations_withHints ..
  have passes : deals.passes .standard = true := deals_passed
  rwa [Schema.passes, ← same] at passes

/-- Deals can be deleted, with the relationship that starts there. -/
theorem vagueDeals_without_deals : (validate (.schema vagueDeals) .standard).passed = true ∧
    2 ≤ vagueDeals.tables.length ∧ vagueDeals.tables[0] ∈ vagueDeals.tables ∧
    (∀ other ∈ vagueDeals.tables, other.name ≠ "deal" → ∀ column ∈ other.columns, ∀ ref,
      column.reference? = some ref → ref.table ≠ "deal") ∧ vagueDeals.isWritable = true ∧
    ∃ revised, vagueDeals.revise [.deleteTable (.str "deal")] = .ok revised ∧
      (validate (.schema revised) .standard).passed = true ∧ revised.tableNames = ["company"] ∧
      revised.tables.map (·.columns) = (vagueDeals.tables.drop 1).map (·.columns) ∧
        revised.relationships = [] := by
  have member : vagueDeals.tables[0] ∈ vagueDeals.tables := List.getElem_mem _
  have free : ∀ other ∈ vagueDeals.tables, other.name ≠ "deal" → ∀ column ∈ other.columns,
      ∀ ref ∈ column.reference?, ref.table ≠ "deal" := by decide
  have writable : vagueDeals.isWritable = true := by decide
  obtain ⟨revised, done, accepted, -, tables, relationships, -⟩ :=
    revise_deleteTable vagueDeals_passed (by decide) member free writable
  refine ⟨vagueDeals_passed, by decide, member, free, writable, revised, done, accepted, ?_,
    ?_, relationships⟩
  · rw [Schema.tableNames, tables]
    decide
  · rw [tables]
    decide

/-- Deals and companies with hints for deals that are nested too deep. -/
def buriedDeals : Schema := { deals with tables := deals.tables.modifyHead (·.withHints .buried) }

set_option maxRecDepth 100000 in
private theorem buriedDeals_passed : (validate (.schema buriedDeals) .standard).passed = true := by
  decide +kernel

private theorem buriedDeals_unwritable : buriedDeals.isWritable = false := by
  rw [isWritable, List.all_eq_false]
  exact ⟨_, List.mem_cons_self, Bool.eq_false_iff.mp Hints.buried_unwritable⟩

/-- Hints stand in the way of more: a schema with hints nested too deep is not changed at all, and
hints of other names that are `null` do not stay on the tables that are left. -/
theorem deletion_not_always_exact :
    (¬ ∀ (schema : Schema) (limits : Limits) (table : Table),
      (validate (.schema schema) limits).passed = true →
      2 ≤ schema.tables.length → table ∈ schema.tables →
      (∀ other ∈ schema.tables, other.name ≠ table.name → ∀ column ∈ other.columns, ∀ ref,
        column.reference? = some ref → ref.table ≠ table.name) →
      ∃ revised, schema.revise [.deleteTable (.str table.name)] = .ok revised) ∧
    ¬ ∀ (schema revised : Schema) (limits : Limits) (table : Table),
      (validate (.schema schema) limits).passed = true → 2 ≤ schema.tables.length →
        table ∈ schema.tables →
      (∀ other ∈ schema.tables, other.name ≠ table.name → ∀ column ∈ other.columns, ∀ ref,
        column.reference? = some ref → ref.table ≠ table.name) →
      schema.revise [.deleteTable (.str table.name)] = .ok revised →
      revised.tables = schema.tables.filter fun other => other.name ≠ table.name := by
  constructor
  · intro deleted
    have free : ∀ other ∈ buriedDeals.tables, other.name ≠ "deal" → ∀ column ∈ other.columns,
        ∀ ref ∈ column.reference?, ref.table ≠ "deal" := by decide
    obtain ⟨revised, done⟩ := deleted buriedDeals .standard buriedDeals.tables[0]
      buriedDeals_passed (by decide)
      (List.getElem_mem _) free
    have writable := (revise_singleton_iff.mp done).1
    rw [buriedDeals_unwritable] at writable
    cases writable
  · intro exact
    have free : ∀ other ∈ vagueDeals.tables, other.name ≠ "deal" → ∀ column ∈ other.columns,
        ∀ ref ∈ column.reference?, ref.table ≠ "deal" := by decide
    have member : vagueDeals.tables[0] ∈ vagueDeals.tables := List.getElem_mem _
    have done : vagueDeals.revise [.deleteTable (.str "deal")] =
        .ok (vagueDeals.withoutTable "deal").settled :=
      revise_withoutTable (by decide) member
    have tables :=
      exact vagueDeals _ .standard vagueDeals.tables[0] vagueDeals_passed
      (by decide) member free done
    revert tables
    decide +kernel

end Schema

end Schemata
