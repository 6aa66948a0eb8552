import Schemata.Ddl.Compilation
import Schemata.Proofs.Graph.Order

/-! The dependency order of a compilation, whatever its tables point at. The tables that reach no
cycle come first, and of all orders that put targets first this one keeps as close to the order of
the schema as it can; the others follow as they stand. -/

namespace Schemata.Ddl

/-- An order with targets first and, of all such orders of the same names, the first one by the
places that the names have in a list. -/
structure Canonical (edge : String → String → Prop) (names order : List String) : Prop where
  ranked : Ranked edge order
  least : ∀ other, other.Perm order → Ranked edge other →
    other = order ∨ List.Lex (fun a b => names.idxOf a < names.idxOf b) order other

namespace Compilation

/-- A table points at another table of the compilation. -/
def Refers (c : Compilation) (name target : String) : Prop :=
  target ∈ c.tableNames ∧ target ≠ name ∧ ∃ t ∈ c.tables, t.name = name ∧ target ∈ t.references

/-- What the tables point at, each table once. -/
def references (c : Compilation) : Graph := c.tables.map fun t => (t.name, t.references)

theorem nodes_references (c : Compilation) : c.references.nodes = c.tableNames := by
  simp [references, Graph.nodes, tableNames, Function.comp_def]

theorem tableNames_ofSchema (options : Options) (schema : Schema) :
    (ofSchema options schema).tableNames = schema.tableNames := by
  simp [tableNames, ofSchema, TableDdl.ofTable, Schema.tableNames, Function.comp_def]

section Distinct

variable {c : Compilation} (distinct : c.tableNames.Nodup)
include distinct

theorem nodup_references : c.references.nodes.Nodup := c.nodes_references ▸ distinct

theorem dependencyOrder_eq : c.dependencyOrder = c.references.dependencyOrder :=
  congrArg _ (Keyed.ofList_eq_self (nodup_references distinct))

theorem dependencyOrder_perm : c.dependencyOrder.Perm c.tableNames := by
  rw [dependencyOrder_eq distinct, ← nodes_references]
  exact Graph.dependencyOrder_perm (nodup_references distinct)

theorem references_edge_iff : c.references.Edge name target ↔
    ∃ t ∈ c.tables, t.name = name ∧ target ∈ t.references := by
  constructor
  · intro edge
    obtain ⟨targets, entry, points⟩ := Graph.exists_entry_of_edge edge
    obtain ⟨t, member, same⟩ := List.mem_map.mp entry
    obtain ⟨rfl, rfl⟩ := Prod.mk.inj same
    exact ⟨t, member, rfl, points⟩
  · rintro ⟨t, member, rfl, points⟩
    have entry : (t.name, t.references) ∈ c.references := List.mem_map_of_mem member
    exact (Graph.edge_iff_of_entry (nodup_references distinct) entry).mpr points

theorem references_proper_edge : c.references.proper.Edge = c.Refers := by
  funext name target
  rw [Graph.proper_edge_iff, references_edge_iff distinct, nodes_references, Refers]
  exact propext (by tauto)

/-- Nodes that were taken stand in the canonical order of their names. -/
private theorem canonical_of_exhausted {first : List String} {left : Graph}
    (exhausted : c.references.Exhausted c.references.proper [] first left) :
    Canonical c.Refers c.tableNames first where
  ranked := references_proper_edge distinct ▸ exhausted.taking.settled.ranked
  least other perm ranked := by
    rw [← nodes_references]
    exact exhausted.least other perm (references_proper_edge distinct ▸ ranked)

theorem canonical_of_acyclic (acyclic : Acyclic c.Refers) :
    Canonical c.Refers c.tableNames c.dependencyOrder := by
  rw [← references_proper_edge distinct] at acyclic
  obtain ⟨left, exhausted⟩ := Graph.dependencyOrder_of_acyclic (nodup_references distinct) acyclic
  rw [dependencyOrder_eq distinct]
  exact canonical_of_exhausted distinct exhausted

/-- The tables that reach no cycle come first, in the canonical order of their names. -/
theorem dependencyOrder_parts : ∃ first rest, c.dependencyOrder = first ++ rest ∧
    Canonical c.Refers c.tableNames first ∧ rest.Sublist c.tableNames ∧
    ∀ name ∈ c.tableNames, name ∈ rest ↔ ReachesCycle c.Refers name := by
  have nodup := nodup_references distinct
  obtain ⟨first, left, order, exhausted⟩ := Graph.dependencyOrder_exhausted nodup
  have kept : left.nodes.Sublist c.references.proper.nodes := exhausted.kept.map _
  rw [Graph.nodes_proper, nodes_references] at kept
  refine ⟨first, left.nodes, dependencyOrder_eq distinct ▸ order,
    canonical_of_exhausted distinct exhausted, kept, fun name listed => ?_⟩
  rw [← references_proper_edge distinct]
  refine ⟨exhausted.reachesCycle nodup, fun reaches => ?_⟩
  refine (exhausted.taking.covers name (c.nodes_references ▸ listed)).resolve_left fun taken => ?_
  exact exhausted.taking.settled.not_reachesCycle (List.mem_reverse.mpr taken) reaches

end Distinct

/-- The loop behind the dependency order ends, and with all tables. Where references lead in no
circle every table comes after those that it points at, as close to the order of the schema as that
allows; in general this holds of the tables that reach no cycle, and the others follow in the order
of the schema. -/
theorem dependencyOrder_canonical (c : Compilation) (distinct : c.tableNames.Nodup) :
    (∀ order, c.references.proper.Takes [] order ↔ order = c.dependencyOrder) ∧
    c.dependencyOrder.Perm c.tableNames ∧
    (Acyclic c.Refers → Canonical c.Refers c.tableNames c.dependencyOrder) ∧
    (Ranked c.Refers c.tableNames → c.dependencyOrder = c.tableNames) ∧
    ∃ first rest, c.dependencyOrder = first ++ rest ∧
      Canonical c.Refers c.tableNames first ∧ rest.Sublist c.tableNames ∧
      ∀ name ∈ c.tableNames, name ∈ rest ↔ ReachesCycle c.Refers name := by
  have nodup := nodup_references distinct
  have order := dependencyOrder_eq distinct
  refine ⟨fun result => ?_, dependencyOrder_perm distinct, canonical_of_acyclic distinct,
    fun ranked => ?_, dependencyOrder_parts distinct⟩
  · rw [order, Graph.dependencyOrder]
    exact Graph.takes_iff (by simp [Graph.proper])
  · rw [order, ← nodes_references]
    refine Graph.dependencyOrder_of_ranked nodup ?_
    rwa [references_proper_edge distinct, nodes_references]

/-- Deals and tasks point at each other; notes point at tasks, at themselves and at a table that is
missing. -/
def tangled : Compilation where
  version := "1.0.0"
  options := .standard
  tables := [("note", ["note", "task", "file"]), ("deal", ["task", "contact"]),
    ("task", ["deal", "deal"]), ("contact", ["company"]), ("company", [])].map
    fun (name, references) =>
      ⟨name, .createTable name [], [], [], [], [], references⟩

theorem tangled_dependencyOrder :
    tangled.dependencyOrder = ["company", "contact", "note", "deal", "task"] ∧
      ∃ first rest, tangled.dependencyOrder = first ++ rest ∧
        Canonical tangled.Refers tangled.tableNames first ∧ rest.Sublist tangled.tableNames ∧
        ∀ name ∈ tangled.tableNames, name ∈ rest ↔ ReachesCycle tangled.Refers name :=
  ⟨by decide +kernel, (dependencyOrder_canonical tangled (by decide)).2.2.2.2⟩

end Compilation

end Schemata.Ddl
