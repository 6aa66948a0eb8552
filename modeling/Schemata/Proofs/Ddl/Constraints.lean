import Schemata.Proofs.Ddl.Catalog
import Schemata.Proofs.Sql.Naming

/-! The foreign keys that are in force after the statements of a table. Each statement that adds one
comes after a statement that drops its name, so of two foreign keys with one name the first is lost.
That happens exactly where a short name looks like a long one cut. -/

namespace Schemata

open Ddl Sql

/-- The names of the constraints of a table before any of them is cut. -/
def Table.wholeNames (table : Table) : List String :=
  table.foreignKeys.map fun key => joinedName ["fk", table.name, key.1.name]

/-- No two long constraint names of the schema have one digest. -/
def Schema.DigestsDiffer (schema : Schema) : Prop :=
  ∀ one ∈ schema.tables.flatMap Table.wholeNames, ∀ other ∈ schema.tables.flatMap Table.wholeNames,
    IsLong one → IsLong other → one ≠ other → digestOf one ≠ digestOf other

/-- No constraint name of the table that is short enough looks like a long one cut. -/
def Table.NoLookalikes (table : Table) : Prop :=
  ∀ short ∈ table.wholeNames, ∀ long ∈ table.wholeNames, ¬ IsLong short → IsLong long →
    short ≠ cutName long

namespace Ddl

private theorem map_fst_foreignKeys (table : Table) :
    table.foreignKeys.map (·.1) = table.columns.filter (·.reference?.isSome) := by
  rw [Table.foreignKeys]
  induction table.columns with
  | nil => rfl
  | cons column rest ih => cases found : column.reference? <;> simp [found, ih]

section Names

variable {table : Table} (distinct : table.columnNames.Nodup)
include distinct

theorem nodup_keyColumns : (table.foreignKeys.map (·.1.name)).Nodup := by
  have columns : table.foreignKeys.map (·.1.name) =
      (table.columns.filter (·.reference?.isSome)).map (·.name) := by
    rw [← map_fst_foreignKeys, List.map_map]
    rfl
  rw [columns]
  exact distinct.sublist (List.filter_sublist.map _)

/-- With different digests, two constraints of a table have one name only where one of them is short
and looks like the other one cut. -/
theorem nodup_names_iff (digests : ∀ one ∈ table.wholeNames, ∀ other ∈ table.wholeNames,
      IsLong one → IsLong other → one ≠ other → digestOf one ≠ digestOf other) :
    ((storedKeys table).map (·.name)).Nodup ↔ table.NoLookalikes := by
  have names : (storedKeys table).map (·.name) =
      (table.foreignKeys.map (·.1.name)).map (constraintName table.name) := by
    simp [storedKeys, Function.comp_def]
  have whole : table.wholeNames =
      (table.foreignKeys.map (·.1.name)).map fun column =>
        joinedName ["fk", table.name, column] := by
    simp [Table.wholeNames, Function.comp_def]
  rw [names, List.nodup_map_iff_inj_on (nodup_keyColumns distinct), Table.NoLookalikes]
  rw [whole] at digests ⊢
  simp only [List.forall_mem_map (f := fun column => joinedName ["fk", table.name, column])]
    at digests ⊢
  constructor
  · intro apart one member other listed short long alike
    have same : constraintName table.name one = constraintName table.name other := by
      rw [constraintName, constraintName, derivedName_of_short short,
        derivedName_of_long long, alike]
    exact short (apart one member other listed same ▸ long)
  · intro apart one member other listed same
    rcases joinedName_cases same with
      whole | ⟨long, wide, alike⟩ | ⟨short, wide, alike⟩ | ⟨long, short, alike⟩
    · exact joinedName_triple_inj whole
    · by_contra differ
      exact digests one member other listed long wide
        (fun joined => differ (joinedName_triple_inj joined)) alike
    · exact absurd alike (apart one member other listed short wide)
    · exact absurd alike (apart other listed one member short long)

theorem all_in_force_iff (known : List StoredKey) :
    (∀ key ∈ storedKeys table, key ∈ (known.filter fun old => ∀ key ∈ storedKeys table,
      ¬ old.Rivals key) ++
      (storedKeys table).pwFilter (¬ StoredKey.Rivals · ·)) ↔
        ((storedKeys table).map (·.name)).Nodup := by
  have owned : ∀ key ∈ storedKeys table, key.table = table.name := by
    intro key member
    obtain ⟨_, _, rfl⟩ := List.mem_map.mp member
    rfl
  have single : (storedKeys table).Nodup := by
    refine List.Nodup.of_map (·.column) ?_
    have columns : (storedKeys table).map (·.column) = table.foreignKeys.map (·.1.name) := by
      simp [storedKeys, Function.comp_def]
    exact columns ▸ nodup_keyColumns distinct
  rw [List.nodup_map_iff_inj_on single]
  constructor
  · intro present one member other listed same
    have lasting :
        ∀ key ∈ storedKeys table, key ∈ (storedKeys table).pwFilter (¬ StoredKey.Rivals · ·) := by
      intro key inside
      refine (List.mem_append.mp (present key inside)).resolve_left fun old => ?_
      exact of_decide_eq_true (List.mem_filter.mp old).2 key inside ⟨rfl, rfl⟩
    by_contra differ
    have apart := (List.pairwise_pwFilter (R := (¬ StoredKey.Rivals · ·)) (storedKeys table)).forall
      (lasting one member) (lasting other listed) differ
    exact apart ⟨(owned one member).trans (owned other listed).symm, same⟩
  · intro injective key member
    have apart : (storedKeys table).Pairwise (¬ StoredKey.Rivals · ·) :=
      single.imp_of_mem fun {one other} inside listed differ rivals =>
        differ (injective one inside other listed rivals.2)
    rw [List.pwFilter_eq_self.mpr apart]
    exact List.mem_append_right _ member

end Names

theorem names_distinct_iff {schema : Schema} (sound : schema.Sound limits)
    (digests : schema.DigestsDiffer) (member : table ∈ schema.tables) :
    ((storedKeys table).map (·.name)).Nodup ↔ table.NoLookalikes := by
  have within : table.wholeNames ⊆ schema.tables.flatMap Table.wholeNames := fun name inside =>
    List.mem_flatMap.mpr ⟨table, member, inside⟩
  exact nodup_names_iff (sound.names table member).distinct fun one inside other listed =>
    digests one (within inside) other (within listed)

end Ddl

/-- Constraint names are never cut off by the database. Where digests differ they are distinct, and
after the statements of a table all its foreign keys are in force, exactly when no short name looks
like a long one cut; in any case the last foreign key of each name is. -/
theorem constraints_in_force (limits : Limits) (schema : Schema)
    (passed : (validate (.schema schema) limits).passed = true) (digests : schema.DigestsDiffer) :
    ∀ table ∈ schema.tables,
      (∀ key ∈ storedKeys table, key.name.length ≤ 63) ∧
      (((storedKeys table).map (·.name)).Nodup ↔ table.NoLookalikes) ∧
      ∀ k : Catalog, ∃ after, k.run? (foreignKeyStatements table) = some after ∧
        after.keys = (k.keys.filter fun old => ∀ key ∈ storedKeys table, ¬ old.Rivals key) ++
          (storedKeys table).pwFilter (¬ StoredKey.Rivals · ·) ∧
        ((∀ key ∈ storedKeys table, key ∈ after.keys) ↔ table.NoLookalikes) := by
  intro table member
  have sound := (schema.passes_iff limits).mp passed
  have names := names_distinct_iff sound digests member
  refine ⟨fun key inside => ?_, names, fun k => ?_⟩
  · obtain ⟨_, _, rfl⟩ := List.mem_map.mp inside
    exact length_derivedName_le _
  · refine ⟨_, k.run?_foreignKeyStatements table,
      Catalog.foldl_replaceKey k.keys (storedKeys table), ?_⟩
    rw [Catalog.foldl_replaceKey, all_in_force_iff (sound.names table member).distinct, names]

/-- Deals point at contacts through a column with a long name, and through one whose name ends in
the digest of the first one's constraint. -/
def Schema.lookalikes : Schema where
  version := "1.0.0"
  tables := [
    { name := "deal"
      columns := auditColumns ++
        ["primary_contact_person_at_the_customer_company_reference_id",
          "primary_contact_person_at_the_customer_company_0a53ef7b"].map
          fun name => ⟨name, .uuid, true, none, false, false, some ⟨"contact", "id", .cascade⟩⟩
      indexes := []
      hints := .none },
    { name := "contact", columns := auditColumns, indexes := [], hints := .none }]
  relationships := []

set_option maxRecDepth 100000 in
theorem Schema.lookalikes_passed : (validate (.schema lookalikes) .standard).passed = true := by
  decide +kernel

theorem Schema.lookalikes_digestsDiffer : Schema.lookalikes.DigestsDiffer := by
  unfold Schema.DigestsDiffer
  decide +kernel

theorem Schema.lookalikes_alike : ∀ table ∈ lookalikes.tables, table.name = "deal" →
    ¬ table.NoLookalikes := by
  intro table member named apart
  have inside : ∀ table ∈ lookalikes.tables, table.name = "deal" →
      "fk_deal_primary_contact_person_at_the_customer_company_0a53ef7b" ∈ table.wholeNames ∧
        "fk_deal_primary_contact_person_at_the_customer_company_reference_id" ∈
          table.wholeNames := by
    decide +kernel
  obtain ⟨short, long⟩ := inside table member named
  exact apart _ short _ long (by unfold IsLong; decide) (by unfold IsLong; decide)
    (by decide +kernel)

/-- One of the two foreign keys of a deal is lost. -/
theorem lookalikes_constraints_in_force : (validate (.schema .lookalikes) .standard).passed = true ∧
    Schema.lookalikes.DigestsDiffer ∧ ∀ table ∈ Schema.lookalikes.tables, table.name = "deal" →
      ∃ after, Catalog.empty.run? (foreignKeyStatements table) = some after ∧
        ¬ ∀ key ∈ storedKeys table, key ∈ after.keys := by
  have passed := Schema.lookalikes_passed
  have digests := Schema.lookalikes_digestsDiffer
  refine ⟨passed, digests, fun table member named => ?_⟩
  obtain ⟨-, -, inForce⟩ := constraints_in_force .standard .lookalikes passed digests table member
  obtain ⟨after, done, -, all⟩ := inForce .empty
  exact ⟨after, done, fun present => Schema.lookalikes_alike table member named (all.mp present)⟩

/-- Different digests do not keep the constraint names of a table apart. -/
theorem constraint_names_not_always_apart : ¬ ∀ (limits : Limits) (schema : Schema),
    (validate (.schema schema) limits).passed = true → schema.DigestsDiffer →
      ∀ table ∈ schema.tables, ((storedKeys table).map (·.name)).Nodup := by
  intro always
  have digests := Schema.lookalikes_digestsDiffer
  have deal : ∃ table ∈ Schema.lookalikes.tables, table.name = "deal" := by decide
  obtain ⟨table, member, named⟩ := deal
  have apart := always .standard .lookalikes Schema.lookalikes_passed digests table member
  have sound := (Schema.passes_iff _ _).mp Schema.lookalikes_passed
  exact Schema.lookalikes_alike table member named
    ((names_distinct_iff sound digests member).mp apart)

end Schemata
