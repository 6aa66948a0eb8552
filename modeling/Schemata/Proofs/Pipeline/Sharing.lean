import Mathlib.Data.List.Induction
import Schemata.Proofs.Pipeline.Gates

/-! One registry for many scopes. Resources are registered under bare table names, so scopes may
share a name. Main statement: after any runs every table of every active version is registered, and
with its own resource unless the name is shared, exactly as long as no scope drops a table of a name
that another scope still has. -/

namespace Schemata

theorem Schema.tableNames_settled (s : Schema) : s.settled.tableNames = s.tableNames := by
  rw [tableNames, settled, List.map_map]
  rfl

namespace VersionStore

variable {store later : VersionStore} {scope other : Scope} {version : Version} {name : String}

/-- The active version of a scope has a table of a name. -/
def Names (store : VersionStore) (scope : Scope) (name : String) : Prop :=
  ∃ version, store.active? scope = some version ∧ name ∈ version.snapshot.tableNames

/-- No scope drops a table of a name that another scope still has. -/
def Spares (before after : VersionStore) : Prop :=
  ∀ scope name, before.Names scope name → ¬ after.Names scope name →
    ∀ other, ¬ after.Names other name

theorem active?_congr (same : store.rows = later.rows) (scope : Scope) :
    store.active? scope = later.active? scope := by
  rw [active?, active?, ofScope, ofScope, same]

theorem names_congr (same : store.rows = later.rows) : store.Names scope name ↔
    later.Names scope name := by
  rw [Names, Names, active?_congr same]

theorem active?_grown_other (own : version.scope = scope) (differs : other ≠ scope) :
    (store.grown scope version).active? other = store.active? other := by
  rw [active?, active?, ofScope_grown_other own differs]

theorem names_grown_self (own : version.scope = scope) (live : version.active = true) :
    (store.grown scope version).Names scope name ↔ name ∈ version.snapshot.tableNames := by
  simp [Names, active?_grown own live, Schema.tableNames_settled]

theorem names_grown_other (own : version.scope = scope) (differs : other ≠ scope) :
    (store.grown scope version).Names other name ↔ store.Names other name := by
  rw [Names, Names, active?_grown_other own differs]

end VersionStore

/-- A run that somebody asks for, of a pipeline that leaves no table out. -/
structure Order where
  pipeline : Pipeline
  converts : pipeline.convert = .usual
  now : Instant
  log : EngineLog
  candidate : Candidate
  errand : Errand

namespace Workspace

def serve (w : Workspace) (order : Order) : Workspace :=
  (order.pipeline.run order.now w order.log order.candidate order.errand).workspace

def serveAll (w : Workspace) (orders : List Order) : Workspace := orders.foldl serve w

/-- Every table of every active version is registered, with its own resource unless another scope
has a table of the name. -/
def Mirrored (w : Workspace) : Prop :=
  ∀ scope version, w.versions.active? scope = some version → ∀ table ∈ version.snapshot.tables,
    ∃ resource, w.registry.resource? table.name = some resource ∧
      ((∀ other ≠ scope, ¬ w.versions.Names other table.name) → resource = table.toResource)

variable {w : Workspace} {order : Order}

/-- A run publishes a schema as the next version of its scope, or it leaves the registry and all
versions as they were. -/
theorem serve_cases (w : Workspace) (order : Order) :
    ((w.serve order).registry = w.registry ∧ (w.serve order).versions.rows = w.versions.rows) ∨
    ∃ schema version registration, version.scope = order.errand.scope ∧ version.active = true ∧
      version.snapshot = schema ∧
      (w.serve order).versions = w.versions.grown order.errand.scope version ∧
      Registry.Published w.registry schema (Pipeline.before? w order.errand)
        (w.serve order).registry
        registration := by
  rcases order.pipeline.run_publishes order.converts order.now w order.log order.candidate
    order.errand with
    unchanged | ⟨schema, registration, -, versions, published⟩
  · exact .inl unchanged
  · exact .inr ⟨schema, _, registration, rfl, rfl, rfl, versions, published⟩

private theorem before?_eq_some (live : w.versions.active? errand.scope = some version) :
    Pipeline.before? w errand = some version.snapshot := by
  rw [Pipeline.before?, live, Option.map_some]

/-- A table that is dropped when a schema is published is no longer registered, whoever else has a
table of its name. -/
theorem resource?_of_dropped (had : w.versions.Names scope name)
    (dropped : ¬ (w.serve order).versions.Names scope name) :
    (w.serve order).registry.resource? name = none := by
  rcases serve_cases w order with
    ⟨-, rows⟩ | ⟨schema, version, registration, own, live, snapshot, versions, published⟩
  · exact absurd ((VersionStore.names_congr rows).mpr had) dropped
  · rw [versions] at dropped
    by_cases here : scope = order.errand.scope
    · subst here
      obtain ⟨previous, active, listed⟩ := had
      have gone : name ∉ schema.tableNames := by
        rwa [VersionStore.names_grown_self own live, snapshot] at dropped
      exact published.removed previous.snapshot (before?_eq_some active) name listed gone
    · exact absurd ((VersionStore.names_grown_other own here).mpr had) dropped

/-- Tables of other scopes stay as they are registered when their names are neither published nor
dropped. -/
theorem Mirrored.publish_other (mirrored : w.Mirrored) {scope own : Scope} {schema : Schema}
    {version next : Version} {registry : Registry}
    (published : Registry.Published w.registry schema
      ((w.versions.active? own).map (·.snapshot)) registry
      registration)
    (ofOwn : next.scope = own) (live : next.active = true) (snapshot : next.snapshot = schema)
    (spares : w.versions.Spares (w.versions.grown own next)) (differs : scope ≠ own)
    (active : w.versions.active? scope = some version) (member : table ∈ version.snapshot.tables) :
    ∃ resource, registry.resource? table.name = some resource ∧
      ((∀ other ≠ scope, ¬ (w.versions.grown own next).Names other table.name) →
        resource = table.toResource) := by
  have named : table.name ∈ version.snapshot.tableNames := List.mem_map_of_mem member
  have publishes : (w.versions.grown own next).Names own table.name ↔
      table.name ∈ schema.tableNames := by
    rw [VersionStore.names_grown_self ofOwn live, snapshot]
  by_cases listed : table.name ∈ schema.tableNames
  · obtain ⟨rival, inside, same⟩ := List.mem_map.mp listed
    refine ⟨rival.toResource, same ▸ published.converted rival inside, fun alone => ?_⟩
    exact absurd (publishes.mpr listed) (alone own differs.symm)
  · -- Had the publishing scope dropped the name, it would not have spared this one.
    have still : (w.versions.grown own next).Names scope table.name :=
      (VersionStore.names_grown_other ofOwn differs).mpr ⟨version, active, named⟩
    have unused : ¬ w.versions.Names own table.name := by
      intro had
      exact spares own table.name had (fun names => listed (publishes.mp names)) scope still
    have kept : registry.resource? table.name = w.registry.resource? table.name := by
      refine published.kept table.name listed fun previous given old => ?_
      obtain ⟨earlier, found, rfl⟩ := Option.map_eq_some_iff.mp given
      exact unused ⟨earlier, found, old⟩
    obtain ⟨resource, found, unshared⟩ := mirrored scope version active table member
    refine ⟨resource, kept.trans found, fun alone => unshared fun other apart had => ?_⟩
    by_cases here : other = own
    · exact unused (here ▸ had)
    · exact alone other apart ((VersionStore.names_grown_other ofOwn here).mpr had)

/-- What is registered for the active versions stays right after a run that spares other scopes. -/
theorem Mirrored.serve (mirrored : w.Mirrored)
    (spares : w.versions.Spares (w.serve order).versions) :
    (w.serve order).Mirrored := by
  intro scope version active table member
  rcases serve_cases w order with
    ⟨registry, rows⟩ | ⟨schema, next, registration, own, live, snapshot, versions, published⟩
  · rw [VersionStore.active?_congr rows] at active
    obtain ⟨resource, found, unshared⟩ := mirrored scope version active table member
    refine ⟨resource, registry ▸ found, fun alone => unshared fun other differs names => ?_⟩
    exact alone other differs ((VersionStore.names_congr rows).mpr names)
  · rw [versions] at active spares ⊢
    by_cases here : scope = order.errand.scope
    · rw [here, VersionStore.active?_grown own live] at active
      obtain rfl := Option.some.inj active
      rw [Version.settled_snapshot, snapshot] at member
      obtain ⟨stored, inside, rfl⟩ := List.mem_map.mp member
      exact ⟨stored.toResource, published.converted stored inside, fun _ => rfl⟩
    · rw [VersionStore.active?_grown_other own here] at active
      exact mirrored.publish_other published own live snapshot spares here active member

/-- A run keeps the registry right if and only if it spares the tables of other scopes. -/
theorem serve_mirrored_iff (mirrored : w.Mirrored) :
    (w.serve order).Mirrored ↔ w.versions.Spares (w.serve order).versions := by
  constructor
  · intro after scope name had dropped other still
    obtain ⟨version, active, listed⟩ := still
    obtain ⟨table, member, rfl⟩ := List.mem_map.mp listed
    obtain ⟨resource, found, -⟩ := after other version active table member
    rw [resource?_of_dropped had dropped] at found
    cases found
  · exact mirrored.serve

private theorem serveAll_concat (w : Workspace) (orders : List Order) (order : Order) :
    w.serveAll (orders ++ [order]) = (w.serveAll orders).serve order := by
  simp [serveAll]

private theorem empty_mirrored (traces : TraceLog) (locks : LockTable) :
    Mirrored ⟨[], .empty, traces, locks⟩ := by
  intro scope version active
  cases active

/-- From an empty registry on, whatever runs are asked for by whatever users in whatever projects:
every table of every active version is registered after each of them, with its own resource unless
another scope has a table of its name, if and only if no run drops a table of a name that another
scope still has. -/
theorem serveAll_mirrored_iff (traces : TraceLog) (locks : LockTable) (orders : List Order) :
    (∀ earlier, earlier <+: orders → (serveAll ⟨[], .empty, traces, locks⟩ earlier).Mirrored) ↔
    ∀ earlier order, earlier ++ [order] <+: orders →
      (serveAll ⟨[], .empty, traces, locks⟩ earlier).versions.Spares
        (serveAll ⟨[], .empty, traces, locks⟩ (earlier ++ [order])).versions := by
  constructor
  · intro mirrored earlier order within
    have before := mirrored earlier ((List.prefix_append earlier [order]).trans within)
    have after := mirrored (earlier ++ [order]) within
    rw [serveAll_concat] at after ⊢
    exact (serve_mirrored_iff before).mp after
  · intro spares earlier within
    induction earlier using List.reverseRecOn with
    | nil => exact empty_mirrored traces locks
    | append_singleton earlier order ih =>
      have before := ih ((List.prefix_append earlier [order]).trans within)
      have spared := spares earlier order within
      rw [serveAll_concat] at spared ⊢
      exact (serve_mirrored_iff before).mpr spared

end Workspace

/-- Companies without deals. -/
def Schema.companies : Schema := { deals with tables := deals.tables.drop 1, relationships := [] }

/-- A run of the standard pipeline, in front of a database that refuses nothing. -/
def Order.standard (second : Int) (schema : Schema) (scope : Scope) : Order :=
  ⟨.standard, rfl, .ofSeconds second, [], .schema schema, ⟨scope, "", "Provision schema", none⟩⟩

set_option maxRecDepth 100000 in
/-- A project may lose a resource to another one: Ada and Bob both have deals, Ada drops hers, and
Bob's are no longer registered. -/
theorem Workspace.not_always_mirrored : ¬ ∀ orders, (Workspace.empty.serveAll orders).Mirrored := by
  intro mirrored
  let crm : Scope := ⟨some "crm", "ada"⟩
  let shop : Scope := ⟨some "shop", "bob"⟩
  let orders : List Order :=
    [.standard 1 .deals crm, .standard 2 .deals shop, .standard 3 .companies crm]
  obtain ⟨lost, listed⟩ :
    ((Workspace.empty.serveAll orders).registry.resource? "deal").isNone = true ∧
      ((Workspace.empty.serveAll orders).versions.active? shop).any
        (fun version => version.snapshot.tableNames.contains "deal") = true := by
    decide +kernel
  obtain ⟨version, active, named⟩ := (Option.any_eq_true _ _).mp listed
  obtain ⟨table, member, same⟩ := List.mem_map.mp (List.contains_iff_mem.mp named)
  obtain ⟨resource, found, -⟩ := mirrored orders shop version active table member
  rw [same, Option.isNone_iff_eq_none.mp lost] at found
  cases found

end Schemata
