import Schemata.Proofs.Resource.Records
import Schemata.Proofs.Schema.RoundTrip

/-! Registries that are exported and imported. Every resource reads back as it was written, so any
registry reads like the exported one after an import, but for the times of its entries. -/

namespace Schemata

open Decode

theorem FieldType.choice_word (type : FieldType) :
    choice all word (.str type.word) = .valid type := by
  refine choice_spell ?_ (by decide)
  cases type <;> decide

theorem LinkKind.choice_word (kind : LinkKind) :
    choice all word (.str kind.word) = .valid kind := by
  refine choice_spell ?_ (by decide)
  cases kind <;> decide

theorem ResourceField.decode_toJson (f : ResourceField) : decode f.toJson = .valid f := by
  obtain ⟨name, type, required, displayName, filterable, sortable, related?⟩ := f
  cases related? <;>
    simp [decode, toJson, ofMembers, Decode.required, Decode.optional, spelled?, List.lookup_cons,
      FieldType.choice_word, Json.ofOption, nullable]

theorem ResourceLink.decode_toJson (l : ResourceLink) : decode l.toJson = .valid l := by
  simp [decode, toJson, ofMembers, Decode.required, Decode.optional, spelled?, List.lookup_cons,
    LinkKind.choice_word]

theorem Resource.decode_toJson (r : Resource) : decode r.toJson = .valid r := by
  have fields : list ResourceField.decode (.arr (r.fields.map ResourceField.toJson)) =
      .valid (r.fields.map id) := list_map fun f _ => f.decode_toJson
  have links : list ResourceLink.decode (.arr (r.links.map ResourceLink.toJson)) =
      .valid (r.links.map id) := list_map fun l _ => l.decode_toJson
  rw [List.map_id] at fields links
  simp [decode, toJson, ofMembers, Decode.required, Decode.optional, spelled?,
    List.lookup_cons, fields, links]

namespace Registry

/-- The members of an export. -/
def exported (registry : Registry) : Members :=
  registry.map fun entry => (entry.1, entry.2.resource.toJson)

variable {source target : Registry} {now : Instant}

/-- An export is read without a fault: all resources are found, in their order, and none is
refused. -/
theorem gather_exported (source : Registry) :
    ∃ fieldCount, gather "import" Prod.fst readEntry source.exported =
      (source.resources, ⟨source.resources.map (·.name), [], fieldCount, []⟩) := by
  have settles : ∀ entry : String × RegistryEntry,
      readEntry (entry.1, entry.2.resource.toJson) = .ok entry.2.resource := by
    intro entry
    rw [readEntry, Resource.decode_toJson]
  obtain ⟨fieldCount, found⟩ := gather_total "import" Prod.fst settles source
  have names : (source.map fun entry => entry.2.resource.name) = source.resources.map (·.name) := by
    rw [resources, List.map_map]
    rfl
  exact ⟨fieldCount, names ▸ found⟩

/-- An import of an export leaves the exported resources, in their order, with the times that the
target had. -/
theorem importEntries_exported (filed : source.Filed) (target : Registry) (now : Instant) :
    ∃ fieldCount, target.importEntries now source.exported =
      (entriesOf now target source.resources, ⟨source.keys, [], fieldCount, []⟩) := by
  obtain ⟨fieldCount, read⟩ := gather_exported source
  have names : source.resources.map (·.name) = source.keys := filed.keys_eq.symm
  have distinct : (entriesOf now target source.resources).keys.Nodup := by
    rw [keys_entriesOf, names]
    exact filed.distinct
  have made : source.resources.foldl (write now target) [] =
      entriesOf now target source.resources :=
    (foldl_write [] source.resources).trans (Keyed.ofList_eq_self distinct)
  refine ⟨fieldCount, ?_⟩
  rw [importEntries, read, names]
  exact congrArg (·, _) made

/-- What an import makes of a target when it is given the export of a source, and what it
reports. -/
structure Imported (source target : Registry) (now : Instant) (after : Registry)
    (report : Registration) : Prop where
  success : report.success = true
  failed : report.failed = []
  errors : report.errors = []
  registered : report.registered = source.keys
  names : after.keys = source.keys
  resources : after.resources = source.resources
  found : ∀ name, after.resource? name = source.resource? name
  plural : ∀ plural, after.byPlural? plural = source.byPlural? plural
  stats : after.stats = source.stats
  navigation : after.navigation = source.navigation
  times : ∀ name entry, after.lookup name = some entry →
    entry.created = ((target.lookup name).map (·.created)).getD now ∧ entry.updated = now
  exported : after.toJson = source.toJson

/-- Whatever writes led to a registry, its export can be imported into any registry: nothing is
refused, and the target reads like the registry that was exported. Names that the target had keep
the time of their first write. -/
theorem replay_imported (convert : Converter) (run : List RegistryStep) (target : Registry)
    (now : Instant) :
    ∃ exported, (replay convert run).toJson = .obj exported ∧
      Imported (replay convert run) target now (target.importEntries now exported).1
        (target.importEntries now exported).2 := by
  have filed := replay_filed convert run
  generalize replay convert run = source at filed ⊢
  obtain ⟨fieldCount, made⟩ := importEntries_exported filed target now
  have kept : (entriesOf now target source.resources).Filed :=
    .entriesOf (filed.keys_eq ▸ filed.distinct)
  have resources : (entriesOf now target source.resources).resources = source.resources :=
    resources_entriesOf ..
  refine ⟨source.exported, rfl, ?_⟩
  rw [made]
  exact {
    success := rfl
    failed := rfl
    errors := rfl
    registered := rfl
    names := by rw [keys_entriesOf, filed.keys_eq]
    resources := resources
    found := fun name => by rw [kept.resource?_eq, filed.resource?_eq, resources]
    plural := kept.byPlural?_congr filed resources
    stats := by rw [Registry.stats, Registry.stats, resources]
    navigation := by rw [Registry.navigation, Registry.navigation, resources]
    times := fun name entry found => by
      obtain ⟨resource, -, same⟩ := List.mem_map.mp (Keyed.mem_of_lookup found)
      obtain ⟨rfl, rfl⟩ := Prod.mk.inj same
      exact ⟨rfl, rfl⟩
    exported := by rw [kept.toJson_eq, filed.toJson_eq, resources] }

end Registry

end Schemata
