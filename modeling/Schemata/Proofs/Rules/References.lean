import Schemata.Rules.Structure
import Schemata.Proofs.Graph.Chains
import Schemata.Proofs.Graph.Cycles

/-! References between tables. Where table names are distinct, the reference graph holds exactly the
references of the schema, so its cycles and chain lengths are those of the references. -/

namespace Schemata

theorem Table.mem_foreignKeys_iff (table : Table) :
    (column, ref) ∈ table.foreignKeys ↔ column ∈ table.columns ∧ column.reference? = some ref := by
  simp only [foreignKeys, List.mem_filterMap, Option.map_eq_some_iff, Prod.mk.injEq]
  constructor
  · rintro ⟨_, member, _, found, rfl, rfl⟩
    exact ⟨member, found⟩
  · rintro ⟨member, found⟩
    exact ⟨column, member, ref, found, rfl, rfl⟩

theorem Table.mem_references_iff (table : Table) :
    target ∈ table.references ↔
      ∃ column ∈ table.columns, ∃ ref, column.reference? = some ref ∧ ref.table = target := by
  simp only [references, List.mem_eraseDups, List.mem_map, Prod.exists,
    mem_foreignKeys_iff, and_assoc, exists_and_left]

namespace Schema

/-- A table points at a table of the schema through one of its foreign keys. -/
def Refers (schema : Schema) (name target : String) : Prop :=
  target ∈ schema.tableNames ∧ ∃ table ∈ schema.tables, table.name = name ∧
    ∃ column ∈ table.columns, ∃ ref, column.reference? = some ref ∧ ref.table = target

variable {schema : Schema} (distinct : schema.tableNames.Nodup)
include distinct

theorem referenceGraph_eq : schema.referenceGraph = schema.tables.map fun table =>
    (table.name, table.references.filter schema.tableNames.contains) := by
  refine Keyed.ofList_eq_self ?_
  simpa [Function.comp_def, tableNames] using distinct

theorem nodes_referenceGraph : schema.referenceGraph.nodes = schema.tableNames := by
  simp [referenceGraph_eq distinct, Graph.nodes, tableNames, Function.comp_def]

theorem referenceGraph_edge_iff : schema.referenceGraph.Edge name target ↔
    schema.Refers name target := by
  have keys : schema.referenceGraph.nodes.Nodup := nodes_referenceGraph distinct ▸ distinct
  constructor
  · intro edge
    obtain ⟨targets, entry, points⟩ := Graph.exists_entry_of_edge edge
    rw [referenceGraph_eq distinct] at entry
    obtain ⟨table, member, same⟩ := List.mem_map.mp entry
    obtain ⟨rfl, rfl⟩ := Prod.mk.inj same
    obtain ⟨points, listed⟩ := List.mem_filter.mp points
    exact ⟨List.contains_iff_mem.mp listed, table, member, rfl, table.mem_references_iff.mp points⟩
  · rintro ⟨listed, table, member, rfl, points⟩
    have entry := referenceGraph_eq distinct ▸ List.mem_map_of_mem member
    refine (Graph.edge_iff_of_entry keys entry).mpr (List.mem_filter.mpr ⟨?_, ?_⟩)
    · exact table.mem_references_iff.mpr points
    · exact List.contains_iff_mem.mpr listed

theorem referenceGraph_edge : schema.referenceGraph.Edge = schema.Refers :=
  funext fun _ => funext fun _ => propext (referenceGraph_edge_iff distinct)

theorem closed_referenceGraph : schema.referenceGraph.Closed := by
  intro name target edge
  exact nodes_referenceGraph distinct ▸ ((referenceGraph_edge_iff distinct).mp edge).1

/-- A cycle is reported exactly when references lead from some table back to it. -/
theorem cycleViolations_eq_nil_iff : cycleViolations schema = [] ↔ Acyclic schema.Refers := by
  rw [cycleViolations, List.map_eq_nil_iff, Graph.cycles_eq_nil_iff, referenceGraph_edge distinct]

/-- The tables of the schema stand with the lengths of their longest chains of references. -/
theorem mem_chainLengths_iff (acyclic : Acyclic schema.Refers) :
    (table, depth) ∈ schema.referenceGraph.chainLengths ↔
      table ∈ schema.tableNames ∧ Longest schema.Refers table depth := by
  rw [← referenceGraph_edge distinct] at acyclic ⊢
  rw [← nodes_referenceGraph distinct]
  exact Graph.mem_chainLengths_iff acyclic (closed_referenceGraph distinct)

theorem mem_depthViolations_iff (acyclic : Acyclic schema.Refers) (limits : Limits) :
    violation ∈ depthViolations schema limits ↔ ∃ table depth, table ∈ schema.tableNames ∧
      Longest schema.Refers table depth ∧ limits.depth < depth ∧
        violation = .deepChain table depth limits.depth := by
  have quiet : schema.referenceGraph.cycles = [] := by
    rwa [Graph.cycles_eq_nil_iff, referenceGraph_edge distinct]
  rw [depthViolations, quiet, List.isEmpty_nil, if_pos rfl, List.mem_filterMap]
  simp only [Prod.exists, mem_chainLengths_iff distinct acyclic, Option.ite_none_right_eq_some,
    Option.some.injEq, and_assoc, @eq_comm _ _ violation]

/-- Without cycles the depth is reported exactly of tables with a longer chain than allowed. -/
theorem depthViolations_eq_nil_iff (acyclic : Acyclic schema.Refers) (limits : Limits) :
    depthViolations schema limits = [] ↔
      ∀ name ∈ schema.tableNames, ∀ steps goal, Walk schema.Refers steps name goal →
        (steps : Int) ≤ limits.depth := by
  rw [List.eq_nil_iff_forall_not_mem]
  simp only [mem_depthViolations_iff distinct acyclic]
  constructor
  · intro unreported name listed steps goal walk
    obtain ⟨depth, entry⟩ := Graph.exists_mem_chainLengths (referenceGraph_edge distinct ▸ acyclic)
      (closed_referenceGraph distinct) (nodes_referenceGraph distinct ▸ listed)
    have longest := ((mem_chainLengths_iff distinct acyclic).mp entry).2
    have short : ¬ limits.depth < depth := fun deep =>
      unreported _ ⟨name, depth, listed, longest, deep, rfl⟩
    have below := longest.bound steps goal walk
    omega
  · rintro bounded _ ⟨table, depth, listed, longest, deep, -⟩
    obtain ⟨goal, walk⟩ := longest.attained
    exact Int.not_lt.mpr (bounded table listed depth goal walk) deep

end Schema

end Schemata
