import Schemata.Proofs.Resource.Publication

/-! All writes to a registry in one form. A write takes names out and then puts resources in, each
under its own name, with the time of the first write that the registry had before. -/

namespace Schemata

/-- Steps that keep what they can settle keep it in order. -/
theorem foldl_settled {step : List Resource × Registration → α → List Resource × Registration}
    {convert : α → Except Nat Resource}
    (keeps : ∀ state candidate, (step state candidate).1 =
      state.1 ++ (convert candidate).toOption.toList)
    (candidates : List α) (state : List Resource × Registration) :
    (candidates.foldl step state).1 = state.1 ++ candidates.filterMap fun c =>
      (convert c).toOption := by
  induction candidates generalizing state with
  | nil => simp
  | cons candidate rest ih =>
    rw [List.foldl_cons, ih, keeps, List.append_assoc, List.filterMap_cons]
    cases (convert candidate).toOption <;> rfl

theorem resources_gather (verb : String) (nameOf : α → String) (convert : α → Except Nat Resource)
    (candidates : List α) :
    (gather verb nameOf convert candidates).1 = candidates.filterMap fun c =>
      (convert c).toOption := by
  refine (foldl_settled (fun state candidate => ?_) candidates ([], .none)).trans
    (List.nil_append _)
  cases convert candidate <;> simp [Except.toOption]

/-- What a registry may be asked to do. -/
inductive RegistryWrite where
  | register (resource : Resource)
  | unregister (name : String)
  | replace (resources : List Resource) (remove : List String) (clear : Bool)
  | clear
  | registerSchema (schema : Schema) (clear : Bool)
  | publish (schema : Schema) (previous? : Option Schema)
  | sync (schema : Schema)
  | importEntries (exported : Members)

namespace RegistryWrite

/-- The names that a write takes out, before it puts anything in. -/
def drops (name : String) : RegistryWrite → Bool
  | register _ | sync _ => false
  | unregister other => name == other
  | replace _ remove all => all || remove.contains name
  | clear | importEntries _ => true
  | registerSchema _ all => all
  | publish schema previous? => (Registry.goneTables previous? schema).contains name

/-- The resources that a write puts in, in order. Only a synchronisation looks at what is there. -/
def puts (convert : Converter) (registry : Registry) : RegistryWrite → List Resource
  | register resource => [resource]
  | unregister _ | clear => []
  | replace resources _ _ => resources
  | registerSchema schema _ | publish schema _ => schema.tables.filterMap fun table =>
    (convert table).toOption
  | sync schema =>
    (schema.tables.filter fun table => (registry.lookup table.name).isNone).filterMap fun table =>
      (convert table).toOption
  | importEntries exported => exported.filterMap fun entry => (Resource.decode entry.2).toOption

/-- A write takes a name out or puts a resource in under it. -/
def Touches (convert : Converter) (registry : Registry) (write : RegistryWrite)
    (name : String) : Prop :=
  write.drops name = true ∨ name ∈ (write.puts convert registry).map (·.name)

end RegistryWrite

/-- A write and the time at which it is made. -/
structure RegistryStep where
  now : Instant
  write : RegistryWrite

namespace Registry

variable {convert : Converter} {now : Instant} {registry earlier : Registry} {step : RegistryStep}
  {name : String}

def perform (convert : Converter) (registry : Registry) (step : RegistryStep) : Registry :=
  match step.write with
  | .register resource => registry.register step.now resource
  | .unregister name => (registry.unregister name).1
  | .replace resources remove clear => registry.replace step.now resources remove clear
  | .clear => []
  | .registerSchema schema clear => (registry.registerSchema convert step.now schema clear).1
  | .publish schema previous? => (registry.publish convert step.now schema previous?).1
  | .sync schema => (registry.sync convert step.now schema).1
  | .importEntries exported => (registry.importEntries step.now exported).1

private theorem replace_eq (now : Instant) (registry : Registry) (resources : List Resource)
    (remove : List String) (clear : Bool) :
    registry.replace now resources remove clear =
      Keyed.merge (registry.filter fun entry => !(clear || remove.contains entry.1))
        (entriesOf now registry resources) := by
  rw [replace, foldl_write]
  cases clear with
  | true =>
    exact congrArg (Keyed.merge · _) (List.filter_eq_nil_iff.mpr fun _ _ => Bool.false_ne_true).symm
  | false => simp [Keyed.foldl_without]

private theorem toOption_readEntry (entry : String × Json) :
    (readEntry entry).toOption = (Resource.decode entry.2).toOption := by
  rw [readEntry]
  cases Resource.decode entry.2 <;> rfl

/-- Every write leaves the names that it does not take out and puts its resources in. -/
theorem perform_eq (convert : Converter) (registry : Registry) (step : RegistryStep) :
    registry.perform convert step =
      Keyed.merge (registry.filter fun entry => !step.write.drops entry.1)
        (entriesOf step.now registry (step.write.puts convert registry)) := by
  have whole : (registry.filter fun _ => true) = registry := List.filter_eq_self.mpr fun _ _ => rfl
  obtain ⟨now, write⟩ := step
  cases write with
  | register resource =>
    exact congrArg (Keyed.merge · (entriesOf now registry [resource])) whole.symm
  | unregister name => rfl
  | replace resources remove clear => exact replace_eq ..
  | clear => exact (List.filter_eq_nil_iff.mpr fun _ _ => Bool.false_ne_true).symm
  | registerSchema schema clear =>
    simp only [perform, registerSchema, convertTables, resources_gather, replace_eq,
      List.contains_nil, Bool.or_false]
    rfl
  | publish schema previous? =>
    simp only [perform, publish, convertTables, resources_gather, replace_eq, Bool.false_or]
    rfl
  | sync schema =>
    simp only [perform, sync, convertTables, resources_gather, replace_eq,
      List.contains_nil, Bool.or_false]
    rfl
  | importEntries exported =>
    simp only [perform, importEntries, resources_gather, toOption_readEntry,
      replace_eq, Bool.true_or]
    rfl

@[simp] theorem resources_entriesOf (now : Instant) (earlier : Registry)
    (resources : List Resource) :
    Registry.resources (entriesOf now earlier resources) = resources := by
  rw [Registry.resources, entriesOf, List.map_map]
  exact List.map_id _

/-! ### Reading after a write -/

/-- After a write a name has the last resource that was put in under it, or else what it had if it
was not taken out. -/
theorem lookup_perform (convert : Converter) (registry : Registry) (step : RegistryStep)
    (name : String) :
    (registry.perform convert step).lookup name =
      ((lastNamed (step.write.puts convert registry) name).map (entryOf step.now registry)).or
        (if step.write.drops name then none else registry.lookup name) := by
  rw [perform_eq, Keyed.lookup_merge, lookup_reverse_entriesOf,
    Keyed.lookup_filter_key registry (fun name => !step.write.drops name)]
  cases step.write.drops name <;> rfl

theorem lookup_perform_of_put (put : lastNamed (step.write.puts convert registry) name =
    some resource) :
    (registry.perform convert step).lookup name = some (entryOf step.now registry resource) := by
  rw [lookup_perform, put]
  rfl

theorem lookup_perform_of_untouched (untouched : ¬ step.write.Touches convert registry name) :
    (registry.perform convert step).lookup name = registry.lookup name := by
  obtain ⟨kept, absent⟩ := not_or.mp untouched
  rw [lookup_perform, lastNamed_eq_none_iff.mpr absent, if_neg kept]
  rfl

/-- An entry behind a write was put in by it, or it was there and the write did not touch its
name. -/
theorem lookup_perform_cases (found : (registry.perform convert step).lookup name = some entry) :
    (∃ resource, lastNamed (step.write.puts convert registry) name = some resource ∧
      entry = entryOf step.now registry resource) ∨
    ¬ step.write.Touches convert registry name ∧ registry.lookup name = some entry := by
  rw [lookup_perform] at found
  cases put : lastNamed (step.write.puts convert registry) name with
  | some resource =>
    rw [put] at found
    exact .inl ⟨resource, rfl, (Option.some.inj found).symm⟩
  | none =>
    rw [put, Option.map_none, Option.none_or] at found
    split at found
    · cases found
    · rename_i kept
      exact .inr ⟨not_or.mpr ⟨kept, lastNamed_eq_none_iff.mp put⟩, found⟩

theorem keys_entriesOf (resources : List Resource) :
    (entriesOf now earlier resources).keys = resources.map (·.name) := by
  rw [Keyed.keys, entriesOf, List.map_map]
  rfl

theorem keys_filter (registry : Registry) (keep : String → Bool) :
    Keyed.keys (registry.filter fun entry => keep entry.1) = registry.keys.filter keep := by
  rw [Keyed.keys, Keyed.keys, List.filter_map]
  rfl

theorem nodup_keys_perform (distinct : registry.keys.Nodup) (convert : Converter)
    (step : RegistryStep) :
    (registry.perform convert step).keys.Nodup := by
  rw [perform_eq]
  refine Keyed.nodup_keys_merge ?_ _
  rw [keys_filter registry fun name => !step.write.drops name]
  exact distinct.sublist List.filter_sublist

/-- Names that a write leaves keep their order, and the others that it puts in come behind them. -/
theorem keys_perform (distinct : registry.keys.Nodup) (convert : Converter) (step : RegistryStep) :
    (registry.perform convert step).keys =
      ((registry.keys.filter fun name => !step.write.drops name) ++
        (step.write.puts convert registry).map (·.name)).eraseDups := by
  have kept := keys_filter registry fun name => !step.write.drops name
  rw [perform_eq, Keyed.keys_merge (kept ▸ distinct.sublist List.filter_sublist),
    kept, keys_entriesOf]

end Registry

end Schemata
