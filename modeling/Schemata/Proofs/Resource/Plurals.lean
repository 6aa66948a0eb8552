import Mathlib.Data.List.Nodup
import Schemata.Proofs.Resource.Reads
import Schemata.Proofs.Rules.Sound

/-! Plural names and routes of published resources. An `s` is added to the names that have none at
the end, so two tables have one plural name and one route when one is named like the other with an
`s` behind it. Of such tables only the last one is found by its plural name. -/

namespace Schemata

theorem IsIdentifier.ne_empty (identifier : IsIdentifier name) : name ≠ "" := by
  rintro rfl
  obtain ⟨first, rest, lineEnd, -, -, -, spelled⟩ := identifier
  cases spelled

/-- A name that stays as it is in the plural. -/
def EndsInS (name : String) : Prop := name.toList.getLast? = some 's'

instance (name : String) : Decidable (EndsInS name) := inferInstanceAs (Decidable (_ = _))

theorem endsInS_append (name : String) : EndsInS (name ++ "s") := by
  simp [EndsInS]

private theorem pluralize_of_endsInS (ends : EndsInS name) : pluralize name = name := if_pos ends

private theorem pluralize_of_not_endsInS (short : ¬ EndsInS name) :
    pluralize name = name ++ "s" := if_neg short

theorem pluralize_eq_iff : pluralize first = pluralize second ↔
    first = second ∨ (¬ EndsInS first ∧ second = first ++ "s") ∨
      (¬ EndsInS second ∧ first = second ++ "s") := by
  by_cases one : EndsInS first <;> by_cases other : EndsInS second
  · simp [pluralize_of_endsInS one, pluralize_of_endsInS other, one, other]
  · have differs : first ≠ second := fun same => other (same ▸ one)
    simp [pluralize_of_endsInS one, pluralize_of_not_endsInS other, one, other, differs]
  · have differs : first ≠ second := fun same => one (same ▸ other)
    simp [pluralize_of_not_endsInS one, pluralize_of_endsInS other, one, other, differs, eq_comm]
  · have apart : second ≠ first ++ "s" := fun same => other (same ▸ endsInS_append first)
    have back : first ≠ second ++ "s" := fun same => one (same ▸ endsInS_append second)
    rw [pluralize_of_not_endsInS one, pluralize_of_not_endsInS other]
    simp [apart, back]

namespace Schema

variable {schema : Schema} {limits : Limits}

/-- No table is named like another one with an `s` behind it. -/
def PluralsApart (schema : Schema) : Prop :=
  ∀ name ∈ schema.tableNames, ¬ EndsInS name → name ++ "s" ∉ schema.tableNames

instance (schema : Schema) : Decidable schema.PluralsApart :=
  inferInstanceAs (Decidable (∀ name ∈ _, _))

theorem pluralsApart_iff (distinct : schema.tableNames.Nodup) : schema.PluralsApart ↔
    ∀ table ∈ schema.tables, ∀ other ∈ schema.tables, pluralize table.name = pluralize other.name →
      table = other := by
  constructor
  · intro apart table member other there same
    have same : table.name = other.name := by
      rcases pluralize_eq_iff.mp same with same | ⟨short, longer⟩ | ⟨short, longer⟩
      · exact same
      · exact absurd (longer ▸ List.mem_map_of_mem there)
          (apart _ (List.mem_map_of_mem member) short)
      · exact absurd (longer ▸ List.mem_map_of_mem member)
          (apart _ (List.mem_map_of_mem there) short)
    exact List.inj_on_of_nodup_map distinct member there same
  · intro tells name listed short longer
    obtain ⟨table, member, rfl⟩ := List.mem_map.mp listed
    obtain ⟨other, there, named⟩ := List.mem_map.mp longer
    obtain rfl := tells table member other there (pluralize_eq_iff.mpr (.inr (.inl ⟨short, named⟩)))
    exact short (named ▸ endsInS_append table.name)

theorem nodup_plurals_iff (distinct : schema.tableNames.Nodup) :
    (schema.tables.map fun table => pluralize table.name).Nodup ↔ schema.PluralsApart := by
  rw [List.nodup_map_iff_inj_on (List.Nodup.of_map _ distinct), pluralsApart_iff distinct]

end Schema

namespace Registry

variable {schema : Schema} {limits : Limits}

theorem publish_empty (now : Instant) (distinct : schema.tableNames.Nodup)
    (previous? : Option Schema) :
    (Registry.publish .usual now [] schema previous?).1 = entriesOf now [] schema.toResources := by
  obtain ⟨fieldCount, made⟩ := publish_eq now [] schema previous?
  have none : (goneTables previous? schema).foldl Keyed.without ([] : Registry) = [] := by
    rw [Keyed.foldl_without, List.filter_nil]
  have names : (entriesOf now [] schema.toResources).map (·.1) = schema.tableNames := by
    rw [entriesOf, Schema.toResources, List.map_map, List.map_map]
    rfl
  rw [made, none, foldl_write]
  exact Keyed.ofList_eq_self (names ▸ distinct)

/-- The last table of a plural name is found by it. -/
theorem byPlural?_publish (sound : schema.Sound limits) (now : Instant) (previous? : Option Schema)
    (plural : String) :
    (Registry.publish .usual now [] schema previous?).1.byPlural? plural =
      (schema.tables.filter fun table => pluralize table.name == plural).getLast?.map
        Table.toResource := by
  have filed : (Registry.publish .usual now [] schema previous?).1.Filed :=
    Filed.empty.perform .usual ⟨now, .publish schema previous?⟩
  rw [publish_empty now sound.tableNames] at filed ⊢
  have named : ∀ name ∈ (entriesOf now [] schema.toResources).keys, name ≠ "" := by
    intro name listed
    rw [keys_entriesOf, Schema.toResources, List.map_map] at listed
    obtain ⟨table, member, rfl⟩ := List.mem_map.mp listed
    exact (sound.names table member).self.form.ne_empty
  rw [filed.byPlural?_eq named, resources_entriesOf, Schema.toResources, List.filter_map,
    List.getLast?_map]
  rfl

/-- Every table is found by its plural name when no two tables share one. -/
theorem reachable_iff (sound : schema.Sound limits) (now : Instant) (previous? : Option Schema) :
    (∀ table ∈ schema.tables, (Registry.publish .usual now [] schema previous?).1.byPlural?
      (pluralize table.name) = some table.toResource) ↔ schema.PluralsApart := by
  simp only [byPlural?_publish sound, Schema.pluralsApart_iff sound.tableNames]
  constructor
  · intro found table member other there same
    have resources : table.toResource = other.toResource :=
      Option.some.inj ((found table member).symm.trans (same ▸ found other there))
    exact List.inj_on_of_nodup_map sound.tableNames member there (congrArg Resource.name resources)
  · intro tells table member
    have inside : table ∈ schema.tables.filter fun other =>
        pluralize other.name == pluralize table.name :=
      List.mem_filter.mpr ⟨member, beq_self_eq_true _⟩
    have last := List.getLast?_eq_some_getLast (List.ne_nil_of_mem inside)
    obtain ⟨there, same⟩ := List.mem_filter.mp (List.mem_of_getLast? last)
    rw [last, Option.map_some, tells _ there table member (beq_iff_eq.mp same)]

theorem nodup_routes_iff (sound : schema.Sound limits) (now : Instant) (previous? : Option Schema) :
    ((Registry.publish .usual now [] schema previous?).1.resources.map (·.route)).Nodup ↔
      schema.PluralsApart := by
  have slash : Function.Injective fun plural : String => "/" ++ plural :=
    fun _ _ same => (String.append_right_inj _).mp same
  have routes : schema.toResources.map (·.route) =
      (schema.tables.map fun table => pluralize table.name).map fun plural => "/" ++ plural := by
    rw [Schema.toResources, List.map_map, List.map_map]
    rfl
  rw [publish_empty now sound.tableNames, resources_entriesOf, routes, List.nodup_map_iff slash,
    Schema.nodup_plurals_iff sound.tableNames]

theorem lists_publish (sound : schema.Sound limits) (now : Instant) (previous? : Option Schema) :
    (Registry.publish .usual now [] schema previous?).1.navigation.map (·.list) =
      (Registry.publish .usual now [] schema previous?).1.resources.map (·.route) := by
  rw [publish_empty now sound.tableNames, navigation, resources_entriesOf,
    Schema.toResources, List.map_map, List.map_map, List.map_map]
  rfl

/-- After an accepted schema was published into an empty registry, a plural name leads to the last
table that has it. Every table is found by its plural name, all routes differ and all paths of lists
differ exactly when no table is named like another one with an `s` behind it. -/
theorem publish_reachable (passed : (validate (.schema schema) limits).passed = true)
    (now : Instant) (previous? : Option Schema) :
    let after := (Registry.publish .usual now [] schema previous?).1
    (∀ plural, after.byPlural? plural =
      (schema.tables.filter fun table => pluralize table.name == plural).getLast?.map
        Table.toResource) ∧
    ((∀ table ∈ schema.tables, after.byPlural? (pluralize table.name) = some table.toResource) ↔
      schema.PluralsApart) ∧
    ((after.resources.map (·.route)).Nodup ↔ schema.PluralsApart) ∧
    ((after.navigation.map (·.list)).Nodup ↔ schema.PluralsApart) := by
  have sound := (schema.passes_iff limits).mp passed
  refine ⟨byPlural?_publish sound now previous?, reachable_iff sound now previous?,
    nodup_routes_iff sound now previous?, ?_⟩
  rw [lists_publish sound]
  exact nodup_routes_iff sound now previous?

/-- Deals and companies are found by their plural names. -/
theorem deals_reachable : (validate (.schema .deals) .standard).passed = true ∧
    Schema.deals.PluralsApart ∧
    ∀ table ∈ Schema.deals.tables,
      (Registry.publish .usual (.ofSeconds 1) [] .deals none).1.byPlural?
      (pluralize table.name) = some table.toResource := by
  have apart : Schema.deals.PluralsApart := by decide
  exact ⟨Schema.deals_passed, apart,
    (publish_reachable Schema.deals_passed (.ofSeconds 1) none).2.1.mpr apart⟩

end Registry

/-- A table of single deals and one that is named like their plural. -/
def Schema.dealsTwice : Schema where
  version := "1.0.0"
  tables := [⟨"deal", auditColumns, [], .none⟩, ⟨"deals", auditColumns, [], .none⟩]
  relationships := []

set_option maxRecDepth 100000 in
theorem Schema.dealsTwice_passed : (validate (.schema dealsTwice) .standard).passed = true := by
  decide +kernel

/-- Accepted tables may hide one another: a table `deals` is what the plural name of `deal` leads
to, and both have one route and one path of a list. -/
theorem Registry.not_always_reachable :
    (¬ ∀ (schema : Schema) (limits : Limits) (now : Instant),
      (validate (.schema schema) limits).passed = true →
      ∀ table ∈ schema.tables, (Registry.publish .usual now [] schema none).1.byPlural?
        (pluralize table.name) =
        some table.toResource) ∧
    (¬ ∀ (schema : Schema) (limits : Limits) (now : Instant),
      (validate (.schema schema) limits).passed = true →
      ((Registry.publish .usual now [] schema none).1.resources.map (·.route)).Nodup) ∧
    ¬ ∀ (schema : Schema) (limits : Limits) (now : Instant),
      (validate (.schema schema) limits).passed = true →
      ((Registry.publish .usual now [] schema none).1.navigation.map (·.list)).Nodup := by
  have together : ¬ Schema.dealsTwice.PluralsApart := by decide
  have sound := (Schema.dealsTwice.passes_iff .standard).mp Schema.dealsTwice_passed
  have now : Instant := .ofSeconds 1
  refine ⟨fun reachable => together ?_, fun routes => together ?_, fun lists => together ?_⟩
  · exact (reachable_iff sound now none).mp (reachable _ _ now Schema.dealsTwice_passed)
  · exact (nodup_routes_iff sound now none).mp (routes _ _ now Schema.dealsTwice_passed)
  · have paths := lists _ _ now Schema.dealsTwice_passed
    rw [lists_publish sound] at paths
    exact (nodup_routes_iff sound now none).mp paths

end Schemata
