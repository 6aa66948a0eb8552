import Schemata.Proofs.Rules.Sound

/-! What is reported about the references of a schema whose tables have names of their own: a report
for every way round that the search finds, and without such ways a report for every table at the
head of too long a chain. -/

namespace Schemata.Schema

section Distinct

variable {schema : Schema} (distinct : schema.tableNames.Nodup)
include distinct

private theorem cycles_round : ∀ path ∈ schema.referenceGraph.cycles, path.IsChain schema.Refers ∧
    (∃ table between, path = table :: (between ++ [table])) ∧ path.dropLast.Nodup := by
  intro path member
  have cycle := Graph.isCycle_of_mem_cycles _ path member
  exact ⟨referenceGraph_edge distinct ▸ cycle.edges, cycle.turns, cycle.simple⟩

theorem mem_structureViolations_iff (acyclic : Acyclic schema.Refers) (limits : Limits) :
    .deepChain table depth limit ∈ structureViolations schema limits ↔ table ∈ schema.tableNames ∧
      Longest schema.Refers table depth ∧ limits.depth < depth ∧ limit = limits.depth := by
  have version : .deepChain table depth limit ∉
      if isVersionText schema.version then [] else [Violation.version schema.version] := by
    split <;> simp
  have count : .deepChain table depth limit ∉ tableCountViolations schema limits := by
    unfold tableCountViolations
    split
    · simp
    · split <;> simp
  have columns :
      .deepChain table depth limit ∉ schema.tables.flatMap (columnCountViolations limits) := by
    intro member
    obtain ⟨other, -, reported⟩ := List.mem_flatMap.mp member
    unfold columnCountViolations at reported
    split at reported
    · simp at reported
    · split at reported <;> simp at reported
  simp only [structureViolations, List.mem_append, version, count, columns, false_or,
    mem_depthViolations_iff distinct acyclic]
  constructor
  · rintro ⟨_, _, listed, longest, deep, same⟩
    obtain ⟨rfl, rfl, rfl⟩ := Violation.deepChain.inj same
    exact ⟨listed, longest, deep, rfl⟩
  · rintro ⟨listed, longest, deep, rfl⟩
    exact ⟨table, depth, listed, longest, deep, rfl⟩

end Distinct

/-- The search for cycles ends. It reports nothing exactly where references lead from no table back
to it; every report is such a way, and no two of them run over the same tables. Without cycles the
chains that are reported are those that are too long, with their exact lengths. -/
theorem reference_reports (schema : Schema) (distinct : schema.tableNames.Nodup) :
    (∀ result, schema.referenceGraph.Explores [] ⟨[], []⟩ schema.referenceGraph.nodes result ↔
      result = schema.referenceGraph.search) ∧
    (cycleViolations schema = [] ↔ Acyclic schema.Refers) ∧
    (∃ paths : List (List String), cycleViolations schema = paths.map .cycle ∧
      (∀ path ∈ paths, path.IsChain schema.Refers ∧
        (∃ table between, path = table :: (between ++ [table])) ∧ path.dropLast.Nodup) ∧
      paths.Pairwise fun one other => ¬ ∀ table, table ∈ one ↔ table ∈ other) ∧
    (Acyclic schema.Refers → ∀ (limits : Limits) table depth limit,
      .deepChain table depth limit ∈ structureViolations schema limits ↔ table ∈ schema.tableNames ∧
        Longest schema.Refers table depth ∧ limits.depth < depth ∧ limit = limits.depth) := by
  refine ⟨fun result => Graph.explores_iff _, cycleViolations_eq_nil_iff distinct, ?_,
    fun acyclic limits table depth limit => mem_structureViolations_iff distinct acyclic limits⟩
  exact ⟨schema.referenceGraph.cycles, rfl, cycles_round distinct, Graph.cycles_distinct _⟩

set_option maxRecDepth 100000 in
theorem deals_reference_reports : cycleViolations deals = [] ∧ Longest deals.Refers "deal" 1 := by
  have distinct : deals.tableNames.Nodup := by decide
  obtain ⟨-, cycles, -, depths⟩ := reference_reports deals distinct
  have quiet : cycleViolations deals = [] := by decide +kernel
  have deep : .deepChain "deal" 1 0 ∈
      structureViolations deals { Limits.standard with depth := 0 } := by
    decide +kernel
  exact ⟨quiet, ((depths (cycles.mp quiet) _ _ _ _).mp deep).2.1⟩

/-- Companies point at deals and at themselves, and deals at companies. -/
def entangled : Schema where
  version := "1.0.0"
  tables := [("deal", ["company"]), ("company", ["deal", "company"])].map fun (name, targets) =>
    { name
      columns := targets.map fun target =>
        ⟨target ++ "_id", .uuid, false, none, false, false, some ⟨target, "id", .cascade⟩⟩
      indexes := []
      hints := .none }
  relationships := []

example : cycleViolations entangled =
    [.cycle ["deal", "company", "deal"], .cycle ["company", "company"]] := by decide +kernel

end Schemata.Schema
