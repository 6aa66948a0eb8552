import Schemata.Proofs.Pipeline.Restoration
import Schemata.Proofs.Pipeline.Sharing

/-! A registry that one scope has to itself. Main statement: whatever is run and restored in the
scope, and wherever that ends, the names that are registered are those of the tables of its active
version, each table has its own resource, and every link leads to a registered resource. -/

namespace Schemata

/-- What is asked of a pipeline: to take a candidate through all stages, or a stored version
again. -/
inductive Demand where
  | run (candidate : Candidate) (errand : Errand)
  | restore (id : String) (user? description? : Option String)

/-- A demand in a scope: a run for the scope, or a restoration that leaves a version to its user. -/
def Demand.IsIn (scope : Scope) : Demand → Prop
  | .run _ errand => errand.scope = scope
  | .restore _ user? _ => ∀ user ∈ user?, user = "" ∨ user = scope.user

/-- A demand put to a pipeline that leaves no table out, with the lock table as it is found then. -/
structure Turn where
  pipeline : Pipeline
  converts : pipeline.convert = .usual
  now : Instant
  log : EngineLog
  locks : LockTable
  demand : Demand

theorem Registry.mem_keys_iff {registry : Registry} :
    name ∈ registry.keys ↔ ∃ resource, registry.resource? name = some resource := by
  rw [← Keyed.isSome_lookup_iff, Option.isSome_iff_exists]
  simp [resource?]

theorem Table.exists_key_of_link {table : Table} (linked : link ∈ table.toResource.links) :
    ∃ column ∈ table.columns, ∃ ref, column.reference? = some ref ∧ link.related = ref.table := by
  obtain ⟨⟨column, ref⟩, key, rfl⟩ := List.mem_map.mp linked
  obtain ⟨inside, found⟩ := table.mem_foreignKeys_iff.mp key
  exact ⟨column, inside, ref, found, rfl⟩

namespace Workspace

/-- What a pipeline makes of a demand. -/
def take (w : Workspace) (turn : Turn) : Workspace :=
  let found : Workspace := { w with locks := turn.locks }
  match turn.demand with
  | .run candidate errand => (turn.pipeline.run turn.now found turn.log candidate errand).workspace
  | .restore id user? description? =>
    (turn.pipeline.restore turn.now found turn.log id user? description?).workspace

def takeAll (w : Workspace) (turns : List Turn) : Workspace := turns.foldl take w

/-- What is registered are the tables of the active version of a scope, and links stay among
them. -/
structure Follows (w : Workspace) (scope : Scope) : Prop where
  names : ∀ name, name ∈ w.registry.keys ↔ w.versions.Names scope name
  resources : ∀ version, w.versions.active? scope = some version →
    ∀ table ∈ version.snapshot.tables,
    w.registry.resource? table.name = some table.toResource
  links : ∀ name resource, w.registry.resource? name = some resource →
    ∀ link ∈ resource.links, link.related ∈ w.registry.keys

/-- What every turn keeps: there are no other scopes, the active version passed the rules, and what
is registered are its tables. -/
structure Tracks (w : Workspace) (scope : Scope) : Prop where
  own : ∀ row ∈ w.versions.rows, row.scope = scope
  passes : ∀ version, w.versions.active? scope = some version →
    ∃ limits, version.snapshot.passes limits = true
  names : ∀ name, name ∈ w.registry.keys ↔ w.versions.Names scope name
  resources : ∀ version, w.versions.active? scope = some version →
    ∀ table ∈ version.snapshot.tables,
    w.registry.resource? table.name = some table.toResource

namespace Tracks

variable {w after : Workspace} {scope : Scope} {p : Pipeline} {errand : Errand}

/-- The rules see to it that foreign keys stay within a schema. -/
theorem follows (tracks : w.Tracks scope) : w.Follows scope := by
  refine ⟨tracks.names, tracks.resources, fun name resource found link linked => ?_⟩
  obtain ⟨version, active, listed⟩ :=
    (tracks.names name).mp (Registry.mem_keys_iff.mpr ⟨resource, found⟩)
  obtain ⟨table, member, rfl⟩ := List.mem_map.mp listed
  rw [tracks.resources version active table member] at found
  obtain rfl := Option.some.inj found
  obtain ⟨column, inside, ref, given, related⟩ := Table.exists_key_of_link linked
  obtain ⟨limits, passes⟩ := tracks.passes version active
  have sound := (version.snapshot.passes_iff limits).mp passes
  obtain ⟨target, present, named, -⟩ :=
    sound.linked.foreignKeys table member column inside ref given
  refine (tracks.names link.related).mpr ⟨version, active, ?_⟩
  rw [related, ← named]
  exact List.mem_map_of_mem present

theorem congr (tracks : w.Tracks scope) (registry : after.registry = w.registry)
    (rows : after.versions.rows = w.versions.rows) : after.Tracks scope where
  own := rows ▸ tracks.own
  passes := by
    rw [VersionStore.active?_congr rows]
    exact tracks.passes
  names name := by
    rw [registry, VersionStore.names_congr rows]
    exact tracks.names name
  resources := by
    rw [registry, VersionStore.active?_congr rows]
    exact tracks.resources

/-- Once a schema is published, nothing else is registered: what the version before had and the
schema has not is gone, and there was nothing besides. -/
theorem publish (tracks : w.Tracks scope) {schema : Schema} {version : Version}
    {registration : Registration} (passes : schema.passes limits = true)
    (own : version.scope = scope) (live : version.active = true)
    (snapshot : version.snapshot = schema) (versions : after.versions =
      w.versions.grown scope version) (published :
      Registry.Published w.registry schema ((w.versions.active? scope).map (·.snapshot))
      after.registry registration) : after.Tracks scope := by
  have active : after.versions.active? scope = some version.settled := by
    rw [versions]
    exact VersionStore.active?_grown own live
  refine ⟨fun row member => ?_, fun other found => ?_, fun name =>
    ?_, fun other found table member => ?_⟩
  · rw [versions] at member
    rcases List.mem_append.mp member with old | new
    · obtain ⟨row, inside, rfl⟩ := List.mem_map.mp old
      split <;> exact tracks.own row inside
    · exact List.mem_singleton.mp new ▸ own
  · obtain rfl := Option.some.inj (active.symm.trans found)
    exact ⟨limits, by rw [Version.settled_snapshot, Schema.passes_settled, snapshot, passes]⟩
  · rw [versions, VersionStore.names_grown_self own live, snapshot, Registry.mem_keys_iff]
    constructor
    · rintro ⟨resource, found⟩
      by_contra missing
      by_cases named : w.versions.Names scope name
      · obtain ⟨previous, earlier, listed⟩ := named
        have given : previous.snapshot ∈ (w.versions.active? scope).map (·.snapshot) := by
          simp [earlier]
        rw [published.removed previous.snapshot given name listed missing] at found
        cases found
      · have kept : after.registry.resource? name = w.registry.resource? name := by
          refine published.kept name missing fun previous given listed => named ?_
          obtain ⟨version, earlier, rfl⟩ := Option.map_eq_some_iff.mp given
          exact ⟨version, earlier, listed⟩
        rw [kept] at found
        exact named ((tracks.names name).mp (Registry.mem_keys_iff.mpr ⟨resource, found⟩))
    · intro listed
      obtain ⟨table, member, rfl⟩ := List.mem_map.mp listed
      exact ⟨_, published.converted table member⟩
  · obtain rfl := Option.some.inj (active.symm.trans found)
    rw [Version.settled_snapshot, snapshot] at member
    obtain ⟨stored, inside, rfl⟩ := List.mem_map.mp member
    exact published.converted stored inside

/-- A run in the scope keeps track, wherever it ends. -/
theorem run (tracks : w.Tracks scope) (converts : p.convert = .usual)
    (inside : errand.scope = scope) (now : Instant) (log : EngineLog) (candidate : Candidate) :
    (p.run now w log candidate errand).workspace.Tracks scope := by
  subst inside
  rcases p.run_publishes converts now w log candidate errand with
    ⟨registry, rows⟩ | ⟨schema, registration, passes, versions, published⟩
  · exact tracks.congr registry rows
  · exact tracks.publish passes rfl rfl rfl versions published

/-- So does a restoration: what it takes through the stages is a version of the scope. -/
theorem restore (tracks : w.Tracks scope) (converts : p.convert = .usual)
    (inside : ∀ user ∈ user?, user = "" ∨ user = scope.user) (now : Instant)
    (log : EngineLog) (id : String) (description? : Option String) :
    (p.restore now w log id user? description?).workspace.Tracks scope := by
  rw [Pipeline.restore, VersionStore.version]
  cases found : w.versions.version? id with
  | none => exact tracks
  | some version =>
    have own : version.scope = scope := tracks.own version (List.mem_of_find?_eq_some found)
    subst own
    exact tracks.run converts (Pipeline.restoration_scope inside description?) now log _

private theorem take (tracks : w.Tracks scope) (turn : Turn) (inside : turn.demand.IsIn scope) :
    (w.take turn).Tracks scope := by
  have found : Tracks { w with locks := turn.locks } scope := tracks.congr rfl rfl
  cases asked : turn.demand with
  | run candidate errand =>
    rw [asked] at inside
    rw [Workspace.take, asked]
    exact found.run turn.converts inside turn.now turn.log candidate
  | restore id user? description? =>
    rw [asked] at inside
    rw [Workspace.take, asked]
    exact found.restore turn.converts inside turn.now turn.log id description?

private theorem takeAll (tracks : w.Tracks scope) (turns : List Turn)
    (inside : ∀ turn ∈ turns, turn.demand.IsIn scope) : (w.takeAll turns).Tracks scope := by
  induction turns generalizing w with
  | nil => exact tracks
  | cons turn rest ih =>
    exact ih (tracks.take turn (inside turn (List.mem_cons_self ..)))
      fun later member => inside later (List.mem_cons_of_mem _ member)

end Tracks

private theorem empty_tracks (scope : Scope) (traces : TraceLog) (locks : LockTable) :
    Tracks ⟨[], .empty, traces, locks⟩ scope where
  own row member := by cases member
  passes version active := by cases active
  names name := by simp [Keyed.keys, VersionStore.Names, VersionStore.active?, VersionStore.ofScope,
    VersionStore.empty]
  resources version active := by cases active

/-- From an empty registry and an empty store on, after any runs and restorations in one scope,
whatever is asked for, refused by a database or locked by others: the registry follows the active
version of the scope. -/
theorem takeAll_follows (scope : Scope) (traces : TraceLog) (locks : LockTable) (turns : List Turn)
    (inside : ∀ turn ∈ turns, turn.demand.IsIn scope) :
    (takeAll ⟨[], .empty, traces, locks⟩ turns).Follows scope :=
  ((empty_tracks scope traces locks).takeAll turns inside).follows

/-- A demand of Ada in one of her projects, put to the standard pipeline while nobody holds a
lock. -/
def crmTurn (second : Int) (demand : Demand) : Turn :=
  ⟨.standard, Pipeline.standard_deployed.converts, .ofSeconds second, [], [], demand⟩

set_option maxRecDepth 100000 in
/-- Deals are published, dropped and restored: in the end they are registered again. -/
theorem deals_restored_follows :
    let scope : Scope := ⟨some "crm", "ada"⟩
    let turns := [
      crmTurn 1 (.run (.schema .deals) ⟨scope, "", "Provision schema", none⟩),
      crmTurn 2 (.run (.schema .companies) ⟨scope, "", "Provision schema", none⟩),
      crmTurn 3 (.restore "v1" (some "ada") none)]
    (∀ turn ∈ turns, turn.demand.IsIn scope) ∧ (Workspace.empty.takeAll turns).Follows scope ∧
      (Workspace.empty.takeAll turns).registry.keys = ["company", "deal"] := by
  intro scope turns
  have inside : ∀ turn ∈ turns, turn.demand.IsIn scope := by
    simp [turns, crmTurn, Demand.IsIn, scope]
  exact ⟨inside, takeAll_follows scope .empty [] turns inside, by decide +kernel⟩

end Workspace

end Schemata
