import Mathlib.Data.List.Induction
import Schemata.Proofs.Resource.Reads
import Schemata.Proofs.Rules.Sound

/-! What a registry tells about the writes behind it. Main statement: after any run of writes a name
has the resource of its last write, with the time of that write and the time of the write that
brought the name in; and the order of the names is the one in which they came in. -/

namespace Schemata

theorem Instant.le_refl (t : Instant) : t ≤ t := Int.le_refl _

theorem Except.toOption_eq_some_iff {result : Except ε α} : result.toOption = some a ↔
    result = .ok a := by
  cases result <;> simp [Except.toOption]

/-- A conversion that leaves the name of a table as it is. -/
def Converter.KeepsNames (convert : Converter) : Prop :=
  ∀ table resource, convert table = .ok resource → resource.name = table.name

theorem Converter.usual_keepsNames : Converter.usual.KeepsNames := by
  rintro table resource made
  obtain rfl := Except.ok.inj made
  rfl

/-- No resource that a write can put in is without a name. -/
def RegistryWrite.Named (convert : Converter) (write : RegistryWrite) : Prop :=
  ∀ registry, ∀ resource ∈ write.puts convert registry, resource.name ≠ ""

namespace Registry

/-- The registry after writes to an empty one, one after the other. -/
def replay (convert : Converter) (run : List RegistryStep) : Registry :=
  run.foldl (perform convert) []

/-- The write that a name has its resource from: it put the resource in, the last one of that name,
and no write behind it touches the name. -/
structure LastWrite (convert : Converter) (before : List RegistryStep) (step : RegistryStep)
    (rest : List RegistryStep) (name : String) (resource : Resource) : Prop where
  put : lastNamed (step.write.puts convert (replay convert before)) name = some resource
  last : ∀ between later, between ++ [later] <+: rest →
    ¬ later.write.Touches convert (replay convert (before ++ step :: between)) name

/-- The write that a name was brought in by: the name was not there before, and it has been there
after every write since. -/
structure Introduced (convert : Converter) (before : List RegistryStep) (step : RegistryStep)
    (rest : List RegistryStep) (name : String) : Prop where
  absent : (replay convert before).lookup name = none
  present : ∀ between, between <+: rest →
    ((replay convert (before ++ step :: between)).lookup name).isSome = true

variable {convert : Converter} {run before rest : List RegistryStep} {step next : RegistryStep}
  {name : String} {resource : Resource} {entry : RegistryEntry}

theorem replay_concat (convert : Converter) (run : List RegistryStep) (step : RegistryStep) :
    replay convert (run ++ [step]) = (replay convert run).perform convert step :=
  List.foldl_append ..

theorem replay_filed (convert : Converter) (run : List RegistryStep) :
    (replay convert run).Filed := by
  induction run using List.reverseRecOn with
  | nil => exact .empty
  | append_singleton run step ih =>
    rw [replay_concat]
    exact ih.perform convert step

/-! ### The last write of a name -/

theorem LastWrite.here (put : lastNamed (step.write.puts convert (replay convert run)) name =
    some resource) :
    LastWrite convert run step [] name resource := by
  refine ⟨put, fun between later within => ?_⟩
  simp at within

theorem lastWrite_concat_iff : LastWrite convert before step (rest ++ [next]) name resource ↔
    LastWrite convert before step rest name resource ∧
      ¬ next.write.Touches convert (replay convert (before ++ step :: rest)) name := by
  constructor
  · rintro ⟨put, last⟩
    refine ⟨⟨put, fun between later within => last between later ?_⟩,
      last rest next (List.prefix_refl _)⟩
    exact within.trans (List.prefix_append ..)
  · rintro ⟨⟨put, last⟩, untouched⟩
    refine ⟨put, fun between later within => ?_⟩
    rcases List.prefix_concat_iff.mp within with whole | inside
    · obtain ⟨rfl, same⟩ := List.append_inj' whole rfl
      obtain rfl := List.singleton_inj.mp same
      exact untouched
    · exact last between later inside

/-- Every entry has its resource and its time from the last write of its name. -/
theorem exists_lastWrite (found : (replay convert run).lookup name = some entry) :
    ∃ before step rest, run = before ++ step :: rest ∧
      LastWrite convert before step rest name entry.resource ∧ entry.updated = step.now := by
  induction run using List.reverseRecOn with
  | nil => cases found
  | append_singleton run next ih =>
    rw [replay_concat] at found
    rcases lookup_perform_cases found with ⟨resource, put, rfl⟩ | ⟨untouched, earlier⟩
    · exact ⟨run, next, [], rfl, .here put, rfl⟩
    · obtain ⟨before, step, rest, rfl, last, time⟩ := ih earlier
      exact ⟨before, step, rest ++ [next], by
        simp, lastWrite_concat_iff.mpr ⟨last, untouched⟩, time⟩

theorem LastWrite.resource? (last : LastWrite convert before step rest name resource) :
    (replay convert (before ++ step :: rest)).resource? name = some resource := by
  induction rest using List.reverseRecOn with
  | nil =>
    rw [replay_concat, Registry.resource?, lookup_perform_of_put last.put]
    rfl
  | append_singleton rest next ih =>
    obtain ⟨last, untouched⟩ := lastWrite_concat_iff.mp last
    have split : before ++ step :: (rest ++ [next]) = (before ++ step :: rest) ++ [next] := by simp
    rw [split, replay_concat, Registry.resource?, lookup_perform_of_untouched untouched]
    exact ih last

/-! ### The write that brought a name in -/

theorem Introduced.concat (introduced : Introduced convert before step rest name)
    (still : ((replay convert (before ++ step :: (rest ++ [next]))).lookup name).isSome = true) :
    Introduced convert before step (rest ++ [next]) name := by
  refine ⟨introduced.absent, fun between within => ?_⟩
  rcases List.prefix_concat_iff.mp within with rfl | inside
  · exact still
  · exact introduced.present between inside

theorem Introduced.here (absent : (replay convert run).lookup name = none)
    (found : ((replay convert run).perform convert step).lookup name = some entry) :
    Introduced convert run step [] name := by
  refine ⟨absent, fun between within => ?_⟩
  obtain rfl := List.prefix_nil.mp within
  rw [replay_concat, found]
  rfl

/-- Every entry has its first time from the write that brought its name in. A name that one write
takes out and puts in again stays. -/
theorem exists_introduced (found : (replay convert run).lookup name = some entry) :
    ∃ before step rest, run = before ++ step :: rest ∧
      Introduced convert before step rest name ∧ entry.created = step.now := by
  induction run using List.reverseRecOn generalizing entry with
  | nil => cases found
  | append_singleton run next ih =>
    have still : ((replay convert (run ++ [next])).lookup name).isSome = true := by rw [found]; rfl
    have onward : ∀ earlier, (replay convert run).lookup name = some earlier →
        entry.created = earlier.created →
        ∃ before step rest, run ++ [next] = before ++ step :: rest ∧
          Introduced convert before step rest name ∧ entry.created = step.now := by
      intro earlier known kept
      obtain ⟨before, step, rest, rfl, introduced, time⟩ := ih known
      exact ⟨before, step, rest ++ [next], by simp, introduced.concat (by simpa using still),
        kept.trans time⟩
    rw [replay_concat] at found
    rcases lookup_perform_cases found with ⟨resource, put, rfl⟩ | ⟨-, earlier⟩
    · have named : resource.name = name := (name_of_lastNamed put).2
      cases known : (replay convert run).lookup name with
      | none => exact ⟨run, next, [], rfl, .here known found, by simp [entryOf, named, known]⟩
      | some earlier => exact onward earlier known (by simp [entryOf, named, known])
    · exact onward entry earlier rfl

theorem created_le_updated (forward : run.Pairwise fun earlier later => earlier.now ≤ later.now)
    (found : (replay convert run).lookup name = some entry) : entry.created ≤ entry.updated := by
  induction run using List.reverseRecOn generalizing entry with
  | nil => cases found
  | append_singleton run next ih =>
    obtain ⟨sooner, -, between⟩ := List.pairwise_append.mp forward
    rw [replay_concat] at found
    rcases lookup_perform_cases found with ⟨resource, put, rfl⟩ | ⟨-, earlier⟩
    · cases known : (replay convert run).lookup resource.name with
      | none => simp [entryOf, known, Instant.le_refl]
      | some earlier =>
        obtain ⟨before, step, rest, rfl, -, time⟩ := exists_introduced known
        have ordered : step.now ≤ next.now := between step (by simp) next (by simp)
        simpa [entryOf, known, time] using ordered
    · exact ih sooner earlier

/-! ### Synchronising -/

variable {registry : Registry} {now later : Instant} {schema : Schema}

theorem sync_eq (convert : Converter) (now : Instant) (registry : Registry) (schema : Schema) :
    (registry.sync convert now schema).1 =
      Keyed.merge registry (entriesOf now registry
        ((RegistryWrite.sync schema).puts convert registry)) := by
  have made := perform_eq convert registry ⟨now, .sync schema⟩
  have whole : (registry.filter fun _ => true) = registry := List.filter_eq_self.mpr fun _ _ => rfl
  exact made.trans (congrArg (Keyed.merge · _) whole)

/-- A synchronisation puts in the resources of a schema that are not there. -/
theorem mem_puts_sync_iff (keeps : convert.KeepsNames) :
    resource ∈ (RegistryWrite.sync schema).puts convert registry ↔
      (∃ table ∈ schema.tables, convert table = .ok resource) ∧
        registry.lookup resource.name = none := by
  simp only [RegistryWrite.puts, List.mem_filterMap, List.mem_filter, Option.isNone_iff_eq_none,
    Except.toOption_eq_some_iff]
  constructor
  · rintro ⟨table, ⟨member, missing⟩, made⟩
    exact ⟨⟨table, member, made⟩, keeps table resource made ▸ missing⟩
  · rintro ⟨⟨table, member, made⟩, missing⟩
    exact ⟨table, ⟨member, keeps table resource made ▸ missing⟩, made⟩

private theorem prefix_sync (keeps : convert.KeepsNames) (now : Instant) (registry : Registry)
    (schema : Schema) :
    registry <+: (registry.sync convert now schema).1 := by
  have fresh :
      ∀ change ∈ entriesOf now registry ((RegistryWrite.sync schema).puts convert registry),
      change.1 ∉ registry.keys := by
    intro change member
    obtain ⟨resource, put, rfl⟩ := List.mem_map.mp member
    exact Keyed.lookup_eq_none_iff.mp ((mem_puts_sync_iff keeps).mp put).2
  have behind := Keyed.merge_append fresh []
  rw [List.append_nil, ← sync_eq] at behind
  exact ⟨_, behind.symm⟩

/-- Once synchronised, a registry stays as it is when it is synchronised with the same schema
again. -/
theorem sync_sync (keeps : convert.KeepsNames) (now later : Instant) (registry : Registry)
    (schema : Schema) :
    ((registry.sync convert now schema).1.sync convert later schema).1 =
      (registry.sync convert now schema).1 := by
  have none : (RegistryWrite.sync schema).puts convert (registry.sync convert now schema).1 =
      [] := by
    refine List.eq_nil_iff_forall_not_mem.mpr fun resource member => ?_
    obtain ⟨asked, missing⟩ := (mem_puts_sync_iff keeps).mp member
    -- A resource that is still missing was missing before, so the first time would have put it in.
    rw [sync_eq, Keyed.lookup_merge, lookup_reverse_entriesOf, Option.or_eq_none_iff,
      Option.map_eq_none_iff, lastNamed_eq_none_iff] at missing
    exact missing.1 (List.mem_map_of_mem ((mem_puts_sync_iff keeps).mpr ⟨asked, missing.2⟩))
  rw [sync_eq, none]
  rfl

/-! ### Runs -/

/-- What holds of a registry after a run of writes, and of all that is read from it. -/
structure Recorded (convert : Converter) (run : List RegistryStep) : Prop where
  own : ∀ entry ∈ replay convert run, entry.2.resource.name = entry.1
  distinct : (replay convert run).keys.Nodup
  ordered : ∀ before step, before ++ [step] <+: run → (replay convert (before ++ [step])).keys =
    (((replay convert before).keys.filter fun name => !step.write.drops name) ++
      (step.write.puts convert (replay convert before)).map (·.name)).eraseDups
  found : ∀ name resource, (replay convert run).resource? name = some resource ↔
    ∃ before step rest, run = before ++ step :: rest ∧
      LastWrite convert before step rest name resource
  all : (replay convert run).resources.map some =
    (replay convert run).keys.map (replay convert run).resource?
  has : ∀ name, ((replay convert run).lookup name).isSome = true ↔ name ∈ (replay convert run).keys
  size : (replay convert run).length = (replay convert run).keys.length
  exported : (replay convert run).toJson = .obj ((replay convert run).resources.map fun r =>
    (r.name, r.toJson))
  updated : ∀ name entry, (replay convert run).lookup name = some entry → ∃ before step rest,
    run = before ++ step :: rest ∧ LastWrite convert before step rest name entry.resource ∧
      entry.updated = step.now
  created : ∀ name entry, (replay convert run).lookup name = some entry → ∃ before step rest,
    run = before ++ step :: rest ∧ Introduced convert before step rest name ∧
      entry.created = step.now
  forward : ∀ name entry, (replay convert run).lookup name = some entry →
    entry.created ≤ entry.updated
  plural : ∀ plural, (replay convert run).byPlural? plural =
    ((replay convert run).resources.filter fun r => r.plural == plural).getLast?
  synced :
    ∀ schema now later, replay convert run <+: ((replay convert run).sync convert now schema).1 ∧
    (((replay convert run).sync convert now schema).1.sync convert later schema).1 =
      ((replay convert run).sync convert now schema).1

private theorem ne_empty_of_mem_keys (named : ∀ step ∈ run, step.write.Named convert)
    (listed : name ∈ (replay convert run).keys) : name ≠ "" := by
  obtain ⟨entry, found⟩ := Option.isSome_iff_exists.mp (Keyed.isSome_lookup_iff.mpr listed)
  obtain ⟨before, step, rest, rfl, last, -⟩ := exists_lastWrite found
  obtain ⟨member, same⟩ := name_of_lastNamed last.put
  exact same ▸ named step (by simp) _ _ member

/-- Any run of writes is recorded: every name has the resource of its last write, in the order in
which names came in. -/
theorem replay_recorded (keeps : convert.KeepsNames)
    (named : ∀ step ∈ run, step.write.Named convert)
    (forward : run.Pairwise fun earlier later => earlier.now ≤ later.now) :
    Recorded convert run where
  own := (replay_filed convert run).own
  distinct := (replay_filed convert run).distinct
  ordered before step _ := by
    rw [replay_concat]
    exact keys_perform (replay_filed convert before).distinct convert step
  found name resource := by
    constructor
    · intro found
      obtain ⟨entry, present, rfl⟩ := Option.map_eq_some_iff.mp found
      obtain ⟨before, step, rest, split, last, -⟩ := exists_lastWrite present
      exact ⟨before, step, rest, split, last⟩
    · rintro ⟨before, step, rest, rfl, last⟩
      exact last.resource?
  all := (replay_filed convert run).map_resources
  has _ := Keyed.isSome_lookup_iff
  size := (List.length_map _).symm
  exported := (replay_filed convert run).toJson_eq
  updated _ _ found := exists_lastWrite found
  created _ _ found := exists_introduced found
  forward _ _ found := created_le_updated forward found
  plural := (replay_filed convert run).byPlural?_eq fun _ listed =>
    ne_empty_of_mem_keys named listed
  synced schema now later := ⟨prefix_sync keeps now _ schema, sync_sync keeps now later _ schema⟩

/-- Deals and companies are published, deals are taken out and put in again in one write, and the
registry is synchronised with the schema. -/
def dealsRun : List RegistryStep := [
  ⟨.ofSeconds 1, .publish .deals none⟩,
  ⟨.ofSeconds 2, .replace (Schema.deals.toResources.take 1) ["deal"] false⟩,
  ⟨.ofSeconds 3, .sync .deals⟩]

/-- Deals come behind companies after that, and keep the time at which they were first published. -/
theorem dealsRun_recorded : Converter.usual.KeepsNames ∧
    (∀ step ∈ dealsRun, step.write.Named .usual) ∧
    (dealsRun.Pairwise fun earlier later => earlier.now ≤ later.now) ∧ Recorded .usual dealsRun ∧
    (replay .usual dealsRun).keys = ["company", "deal"] ∧
    ((replay .usual dealsRun).lookup "deal").map (fun entry => (entry.created, entry.updated)) =
      some (.ofSeconds 1, .ofSeconds 2) := by
  have nameless : ∀ table ∈ Schema.deals.tables, table.name ≠ "" := by decide
  have named : ∀ step ∈ dealsRun, step.write.Named .usual := by
    refine List.forall_mem_cons.mpr ⟨fun _ => ?_, List.forall_mem_cons.mpr ⟨fun _ => ?_, ?_⟩⟩
    · exact (by decide : ∀ resource ∈ Schema.deals.toResources, resource.name ≠ "")
    · exact (by decide : ∀ resource ∈ Schema.deals.toResources.take 1, resource.name ≠ "")
    · refine List.forall_mem_singleton.mpr fun registry resource member => ?_
      obtain ⟨⟨table, inside, made⟩, -⟩ := (mem_puts_sync_iff Converter.usual_keepsNames).mp member
      exact Converter.usual_keepsNames table resource made ▸ nameless table inside
  have forward : dealsRun.Pairwise fun earlier later => earlier.now ≤ later.now := by decide
  refine ⟨Converter.usual_keepsNames, named, forward,
    replay_recorded Converter.usual_keepsNames named forward, ?_, ?_⟩
  · decide +kernel
  · decide +kernel

end Registry

end Schemata
