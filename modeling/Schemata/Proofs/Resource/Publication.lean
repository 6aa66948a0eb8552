import Schemata.Proofs.Keyed
import Schemata.Resource.Publication

/-! What a publication leaves in the registry: the resource of every table, nothing of the tables
that are gone, and every other name as it was. Resources that are written one after the other are
merged in under their names, so that the last one of a name is found. -/

namespace Schemata

namespace Keyed

theorem foldl_without (entries : Keyed α) (names : List String) :
    names.foldl without entries = entries.filter fun entry => !names.contains entry.1 := by
  induction names generalizing entries with
  | nil => exact (List.filter_eq_self.mpr fun _ _ => rfl).symm
  | cons name rest ih =>
    rw [List.foldl_cons, ih, without, List.filter_filter]
    exact List.filter_congr fun entry _ => by by_cases same : entry.1 = name <;> simp [same]

private theorem lookup_foldl_without (entries : Keyed α) (names : List String) (key : String) :
    (names.foldl without entries).lookup key = if key ∈ names then none
      else entries.lookup key := by
  rw [foldl_without, lookup_filter_key entries (fun name => !names.contains name)]
  simp

end Keyed

/-- Candidates that can all be settled are all found, and none is reported. -/
theorem gather_total (verb : String) (nameOf : β → String)
    {convert : β → Except Nat Resource} {write : α → β} {resourceOf : α → Resource}
    (settles : ∀ value, convert (write value) = .ok (resourceOf value)) (values : List α) :
    ∃ fieldCount, gather verb nameOf convert (values.map write) =
      (values.map resourceOf, ⟨values.map fun value => (resourceOf value).name, [],
        fieldCount, []⟩) := by
  have onward : ∀ (resources : List Resource) (report : Registration), ∃ fieldCount,
      values.foldl (fun state value =>
        (state.1 ++ [resourceOf value], state.2.accept (resourceOf value))) (resources, report) =
      (resources ++ values.map resourceOf,
        ⟨report.registered ++ values.map (fun value => (resourceOf value).name),
          report.failed, fieldCount, report.errors⟩) := by
    induction values with
    | nil => exact fun resources report => ⟨report.fieldCount, by simp⟩
    | cons value rest ih =>
      intro resources report
      obtain ⟨fieldCount, found⟩ :=
        ih (resources ++ [resourceOf value]) (report.accept (resourceOf value))
      refine ⟨fieldCount, ?_⟩
      rw [List.foldl_cons, found]
      simp [Registration.accept]
  obtain ⟨fieldCount, found⟩ := onward [] .none
  refine ⟨fieldCount, ?_⟩
  simp only [gather, List.foldl_map, settles]
  simpa [Registration.none] using found

/-- The last resource of a name. -/
def lastNamed (resources : List Resource) (name : String) : Option Resource :=
  (resources.filter fun resource => resource.name == name).getLast?

theorem lastNamed_eq_none_iff : lastNamed resources name = none ↔
    name ∉ resources.map (·.name) := by
  simp [lastNamed]

theorem name_of_lastNamed (found : lastNamed resources name = some resource) :
    resource ∈ resources ∧ resource.name = name := by
  simpa using List.mem_filter.mp (List.mem_of_getLast? found)

theorem lastNamed_eq_some_iff (distinct : (resources.map (·.name)).Nodup) :
    lastNamed resources name = some resource ↔ resource ∈ resources ∧ resource.name = name := by
  rw [lastNamed, List.getLast?_filter, Keyed.find?_reverse_eq_some_iff distinct]

namespace Registry

variable {now : Instant} {earlier : Registry}

/-- The entry that a resource is written as when a registry was there before. -/
def entryOf (now : Instant) (earlier : Registry) (resource : Resource) : RegistryEntry :=
  ⟨resource, ((earlier.lookup resource.name).map (·.created)).getD now, now⟩

/-- The entries that resources are written as, under their names. -/
def entriesOf (now : Instant) (earlier : Registry) (resources : List Resource) : Registry :=
  resources.map fun resource => (resource.name, entryOf now earlier resource)

theorem foldl_write (registry : Registry) (resources : List Resource) :
    resources.foldl (write now earlier) registry =
      Keyed.merge registry (entriesOf now earlier resources) := by
  rw [Keyed.merge, entriesOf, List.foldl_map]
  rfl

theorem lookup_reverse_entriesOf (resources : List Resource) (name : String) :
    (entriesOf now earlier resources).reverse.lookup name =
      (lastNamed resources name).map (entryOf now earlier) := by
  rw [entriesOf, ← List.map_reverse, Keyed.lookup_map_key, lastNamed, List.getLast?_filter]

theorem resource?_foldl_write (registry : Registry) (resources : List Resource) (name : String) :
    resource? (resources.foldl (write now earlier) registry) name =
      (lastNamed resources name).or (registry.resource? name) := by
  rw [resource?, foldl_write, Keyed.lookup_merge, lookup_reverse_entriesOf]
  cases lastNamed resources name <;> rfl

/-- The tables of a previous schema that the next one does not have. -/
def goneTables (previous? : Option Schema) (schema : Schema) : List String :=
  previous?.elim [] fun previous =>
    previous.tableNames.filter fun name => !schema.tableNames.contains name

private theorem mem_goneTables : name ∈ goneTables previous? schema ↔
    (∃ previous ∈ previous?, name ∈ previous.tableNames) ∧ name ∉ schema.tableNames := by
  cases previous? <;> simp [goneTables]

theorem publish_eq (now : Instant) (registry : Registry) (schema : Schema)
    (previous? : Option Schema) :
    ∃ fieldCount, registry.publish .usual now schema previous? =
      ((schema.tables.map Table.toResource).foldl (write now registry)
          ((goneTables previous? schema).foldl Keyed.without registry),
        ⟨schema.tableNames, [], fieldCount, []⟩) := by
  have settles : ∀ table : Table, Converter.usual (id table) = .ok table.toResource := fun _ => rfl
  obtain ⟨fieldCount, found⟩ := gather_total "register" Table.name settles schema.tables
  rw [List.map_id] at found
  have converted : convertTables .usual schema.tables =
      (schema.tables.map Table.toResource, ⟨schema.tableNames, [], fieldCount, []⟩) := found
  exact ⟨fieldCount, by rw [publish, converted]; rfl⟩

/-- What holds of a registry after a schema was published in place of a previous one. -/
structure Published (registry : Registry) (schema : Schema) (previous? : Option Schema)
    (after : Registry) (registration : Registration) : Prop where
  registered : registration.registered = schema.tableNames
  failed : registration.failed = []
  converted : ∀ table ∈ schema.tables, after.resource? table.name = some table.toResource
  removed : ∀ previous ∈ previous?, ∀ name ∈ previous.tableNames, name ∉ schema.tableNames →
    after.resource? name = none
  kept : ∀ name ∉ schema.tableNames, (∀ previous ∈ previous?, name ∉ previous.tableNames) →
    after.resource? name = registry.resource? name

theorem publish_usual (now : Instant) (registry : Registry) (distinct : schema.tableNames.Nodup)
    (previous? : Option Schema) :
    Published registry schema previous? (registry.publish .usual now schema previous?).1
      (registry.publish .usual now schema previous?).2 := by
  obtain ⟨fieldCount, made⟩ := publish_eq now registry schema previous?
  have names : (schema.tables.map Table.toResource).map (·.name) = schema.tableNames := by
    rw [List.map_map]
    rfl
  have found : ∀ name, (registry.publish .usual now schema previous?).1.resource? name =
      (lastNamed (schema.tables.map Table.toResource) name).or
        (if name ∈ goneTables previous? schema then none else registry.resource? name) := by
    intro name
    rw [made, resource?_foldl_write, resource?, Keyed.lookup_foldl_without]
    split <;> rfl
  have absent : ∀ name ∉ schema.tableNames, lastNamed (schema.tables.map Table.toResource) name =
      none :=
    fun name missing => lastNamed_eq_none_iff.mpr (names ▸ missing)
  refine ⟨by rw [made], by rw [made], ?_, ?_, ?_⟩
  · intro table member
    have listed : table.toResource ∈ schema.tables.map Table.toResource :=
      List.mem_map_of_mem member
    have last := (lastNamed_eq_some_iff (names ▸ distinct)).mpr ⟨listed, rfl⟩
    exact (found table.name).trans (congrArg (Option.or · _) last)
  · intro previous given name listed missing
    rw [found, absent name missing, Option.none_or,
      if_pos (mem_goneTables.mpr ⟨⟨previous, given, listed⟩, missing⟩)]
  · intro name missing unlisted
    rw [found, absent name missing, Option.none_or, if_neg]
    intro gone
    obtain ⟨⟨previous, given, listed⟩, -⟩ := mem_goneTables.mp gone
    exact unlisted previous given listed

end Registry

end Schemata
