import Schemata.Proofs.Graph.Ways
import Schemata.Proofs.Rules.References

/-! Which rounds of references are reported. The search for cycles comes to every table on one way,
and reports the rounds that a reference closes with the way to its table. Every round has such a
reference, but where two rounds share one, only one of them has to be reported. -/

namespace Schemata.Schema

/-- A round of references: every table refers to the next one, the last table is the first one
again, and no other table comes twice. -/
structure Round (schema : Schema) (path : List String) : Prop where
  references : path.IsChain schema.Refers
  turns : ∃ table between, path = table :: (between ++ [table])
  simple : path.dropLast.Nodup

/-- A cycle is reported over exactly the tables of a path. -/
def Reports (schema : Schema) (path : List String) : Prop :=
  ∃ reported, .cycle reported ∈ cycleViolations schema ∧ ∀ table, table ∈ reported ↔ table ∈ path

theorem reports_iff (schema : Schema) (path : List String) :
    schema.Reports path ↔ schema.referenceGraph.search.Reports path := by
  simp [Reports, cycleViolations, Graph.Search.Reports, Graph.cycles]

/-- A round is reported exactly when some reference closes one over the same tables. -/
theorem reports_iff_exists_closing {schema : Schema} : schema.Reports path ↔ ∃ table target way,
    schema.referenceGraph.Closing table target way ∧
      ∀ other, other ∈ Graph.loopAt way target ↔ other ∈ path := by
  rw [reports_iff]
  constructor
  · rintro ⟨reported, member, same⟩
    obtain ⟨table, target, way, closing, rfl⟩ := Graph.exists_closing_of_mem_cycles member
    exact ⟨table, target, way, closing, same⟩
  · rintro ⟨table, target, way, closing, same⟩
    obtain ⟨reported, member, alike⟩ := closing.reports
    exact ⟨reported, member, fun other => (alike other).trans (same other)⟩

section Distinct

variable {schema : Schema} (distinct : schema.tableNames.Nodup)
include distinct

theorem isCycle_iff_round : schema.referenceGraph.IsCycle path ↔ schema.Round path := by
  constructor
  · intro cycle
    exact ⟨referenceGraph_edge distinct ▸ cycle.edges, cycle.turns, cycle.simple⟩
  · intro round
    exact ⟨(referenceGraph_edge distinct).symm ▸ round.references, round.turns, round.simple⟩

/-- A round is reported when all rounds that share a reference with it run over its tables. -/
theorem Round.reports_of_apart (round : schema.Round path)
    (apart : ∀ other, schema.Round other →
      (∃ table target, [table, target] <:+: path ∧ [table, target] <:+: other) →
        ∀ table, table ∈ other ↔ table ∈ path) : schema.Reports path := by
  obtain ⟨table, target, way, step, closing⟩ :=
    ((isCycle_iff_round distinct).mpr round).exists_closing
  have closed := (isCycle_iff_round distinct).mp closing.isCycle
  exact reports_iff_exists_closing.mpr ⟨table, target, way, closing,
    apart _ closed ⟨table, target, step, closing.infix_loopAt⟩⟩

end Distinct

/-- The search comes to every table on one way. Of the rounds of references exactly those are
reported that a reference closes with the way to its table. Every round has such a reference, so a
round is reported over its own tables unless another round, over other tables, shares a reference
with it. -/
theorem rounds_reported (schema : Schema) (distinct : schema.tableNames.Nodup) :
    (∀ table ∈ schema.tableNames, ∃! way, schema.referenceGraph.Leads table []
      schema.tableNames way) ∧
    (∀ path, schema.Reports path ↔ ∃ table target way,
      schema.referenceGraph.Closing table target way ∧
      ∀ other, other ∈ Graph.loopAt way target ↔ other ∈ path) ∧
    (∀ path, schema.Round path → ∃ table target way, [table, target] <:+: path ∧
      schema.referenceGraph.Closing table target way ∧ schema.Reports (Graph.loopAt way target)) ∧
    ∀ path, schema.Round path →
      (∀ other, schema.Round other →
        (∃ table target, [table, target] <:+: path ∧ [table, target] <:+: other) →
          ∀ table, table ∈ other ↔ table ∈ path) → schema.Reports path := by
  refine ⟨fun table listed => ?_, fun path => reports_iff_exists_closing, fun path round => ?_,
    fun path round apart => round.reports_of_apart distinct apart⟩
  · rw [← nodes_referenceGraph distinct] at listed ⊢
    exact Graph.existsUnique_way _ listed
  · obtain ⟨table, target, way, step, closing⟩ :=
      ((isCycle_iff_round distinct).mpr round).exists_closing
    exact ⟨table, target, way, step, closing, (reports_iff _ _).mpr closing.reports⟩

/-- Deals point at companies and contacts, companies back at deals, and contacts at companies. -/
def detour : Schema where
  version := "1.0.0"
  tables := [("deal", ["company", "contact"]), ("company", ["deal"]), ("contact", ["company"])].map
    fun (name, targets) =>
      { name
        columns := targets.map fun target =>
          ⟨target ++ "_id", .uuid, false, none, false, false, some ⟨target, "id", .cascade⟩⟩
        indexes := []
        hints := .none }
  relationships := []

/-- The way to a company comes from a deal, and its reference back to deals closes a round. -/
theorem detour_rounds_reported : detour.tableNames.Nodup ∧
    detour.Reports ["company", "deal", "company"] := by
  have distinct : detour.tableNames.Nodup := by decide
  have way :
      detour.referenceGraph.Leads "company" [] detour.referenceGraph.nodes ["deal", "company"] :=
    .turns (by decide) (by decide) (.arrives (by decide))
  have closing : detour.referenceGraph.Closing "company" "deal" ["deal", "company"] :=
    ⟨way, by unfold Graph.Edge; decide +kernel, by decide⟩
  refine ⟨distinct, ((rounds_reported detour distinct).2.1 _).mpr ⟨_, _, _, closing,
    fun table => ?_⟩⟩
  have loop : Graph.loopAt ["deal", "company"] "deal" = ["deal", "company", "deal"] := by decide
  rw [loop]
  simp only [List.mem_cons, List.not_mem_nil, or_false]
  tauto

/-- A deal's company leads back to the deal before the search comes to its contact, so the round
over all three tables is not reported. -/
theorem not_every_round_reported :
    ¬ ∀ schema : Schema, schema.tableNames.Nodup → ∀ path, schema.Round path →
      schema.Reports path := by
  intro always
  have distinct : detour.tableNames.Nodup := by decide
  have edge : ∀ step ∈ [("deal", "contact"), ("contact", "company"), ("company", "deal")],
      detour.Refers step.1 step.2 := by
    intro step member
    rw [← referenceGraph_edge distinct]
    exact (by unfold Graph.Edge; decide +kernel : ∀ step ∈ _,
      detour.referenceGraph.Edge step.1 step.2)
      step member
  have round : detour.Round ["deal", "contact", "company", "deal"] :=
    ⟨by simpa using edge, ⟨"deal", ["contact", "company"], rfl⟩, by decide⟩
  obtain ⟨reported, member, same⟩ := always detour distinct _ round
  have only : cycleViolations detour = [.cycle ["deal", "company", "deal"]] := by decide +kernel
  rw [only] at member
  obtain rfl := Violation.cycle.inj (List.mem_singleton.mp member)
  exact absurd ((same "contact").mpr (by decide)) (by decide)

end Schemata.Schema
