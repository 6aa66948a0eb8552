import Schemata.Proofs.Resource.Writes

/-! Reading a registry. As long as each resource is filed once and under its own name, all that is
read of a registry agrees with the look-up of single names, and the index of plural names leads to
the last resource of a plural name. -/

namespace Schemata.Registry

variable {convert : Converter} {registry : Registry} {step : RegistryStep} {name plural : String}

/-- Every resource is filed under its own name, and no name twice. -/
structure Filed (registry : Registry) : Prop where
  own : ∀ entry ∈ registry, entry.2.resource.name = entry.1
  distinct : registry.keys.Nodup

namespace Filed

theorem empty : Filed [] := ⟨nofun, List.nodup_nil⟩

theorem perform (filed : registry.Filed) (convert : Converter) (step : RegistryStep) :
    (registry.perform convert step).Filed := by
  have distinct := nodup_keys_perform filed.distinct convert step
  refine ⟨fun (name, entry) member => ?_, distinct⟩
  rcases lookup_perform_cases (Keyed.lookup_of_mem distinct member) with
    ⟨resource, put, rfl⟩ | ⟨-, found⟩
  · exact (name_of_lastNamed put).2
  · exact filed.own _ (Keyed.mem_of_lookup found)

theorem entriesOf {now : Instant} {earlier : Registry} {resources : List Resource}
    (distinct : (resources.map (·.name)).Nodup) : (entriesOf now earlier resources).Filed := by
  refine ⟨fun entry member => ?_, (keys_entriesOf resources).symm ▸ distinct⟩
  obtain ⟨resource, -, rfl⟩ := List.mem_map.mp member
  rfl

theorem resource?_of_mem (filed : registry.Filed) (member : (name, entry) ∈ registry) :
    registry.resource? name = some entry.resource := by
  rw [resource?, Keyed.lookup_of_mem filed.distinct member]
  rfl

theorem keys_eq (filed : registry.Filed) : registry.keys = registry.resources.map (·.name) := by
  rw [resources, List.map_map]
  exact List.map_congr_left fun entry member => (filed.own entry member).symm

theorem map_resources (filed : registry.Filed) :
    registry.resources.map some = registry.keys.map registry.resource? := by
  rw [resources, Keyed.keys, List.map_map, List.map_map]
  exact List.map_congr_left fun entry member => (filed.resource?_of_mem member).symm

theorem toJson_eq (filed : registry.Filed) :
    registry.toJson = .obj (registry.resources.map fun r => (r.name, r.toJson)) := by
  rw [toJson, resources, List.map_map]
  refine congrArg Json.obj (List.map_congr_left fun entry member => ?_)
  rw [Function.comp_apply, filed.own entry member]

theorem resource?_eq (filed : registry.Filed) (name : String) :
    registry.resource? name = registry.resources.find? fun r => r.name == name := by
  have self : (registry.map fun entry => (entry.2.resource.name, entry.2)) = registry := by
    refine Eq.trans (List.map_congr_left fun entry member => ?_) (List.map_id registry)
    rw [filed.own entry member]
    rfl
  have looked :=
    Keyed.lookup_map_key registry (fun entry => entry.2.resource.name) (fun entry => entry.2) name
  rw [self] at looked
  rw [resource?, looked, Option.map_map, resources, List.find?_map]
  rfl

private theorem pluralIndex_eq (filed : registry.Filed) :
    registry.pluralIndex = Keyed.ofList (registry.resources.map fun r => (r.plural, r.name)) := by
  rw [pluralIndex, resources, List.map_map]
  refine congrArg Keyed.ofList (List.map_congr_left fun entry member => ?_)
  rw [Function.comp_apply, filed.own entry member]

theorem byPlural?_congr {other : Registry} (filed : registry.Filed) (also : other.Filed)
    (same : registry.resources = other.resources) (plural : String) :
    registry.byPlural? plural = other.byPlural? plural := by
  simp only [byPlural?, filed.pluralIndex_eq, also.pluralIndex_eq, filed.resource?_eq,
    also.resource?_eq, same]

end Filed

private theorem lookup_pluralIndex (registry : Registry) (plural : String) :
    registry.pluralIndex.lookup plural =
      (registry.reverse.find? fun entry => entry.2.resource.plural == plural).map (·.1) := by
  have looked :=
    Keyed.lookup_merge [] (registry.map fun entry => (entry.2.resource.plural, entry.1)) plural
  rw [List.lookup_nil, Option.or_none, ← List.map_reverse, Keyed.lookup_map_key] at looked
  exact looked

theorem Filed.byPlural?_eq (filed : registry.Filed) (named : ∀ name ∈ registry.keys, name ≠ "")
    (plural : String) :
    registry.byPlural? plural = (registry.resources.filter
      fun r => r.plural == plural).getLast? := by
  rw [byPlural?, lookup_pluralIndex, List.getLast?_filter, resources,
    ← List.map_reverse, List.find?_map, Function.comp_def]
  cases found : registry.reverse.find? fun entry => entry.2.resource.plural == plural with
  | none => rfl
  | some entry =>
    have member : entry ∈ registry := List.mem_reverse.mp (List.mem_of_find?_eq_some found)
    have here : entry.1 ≠ "" := named entry.1 (List.mem_map_of_mem member)
    exact (if_neg here).trans (filed.resource?_of_mem member)

end Schemata.Registry
