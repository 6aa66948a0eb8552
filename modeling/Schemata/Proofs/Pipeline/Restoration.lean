import Schemata.Proofs.History.Lasting
import Schemata.Proofs.Pipeline.Stages
import Schemata.Proofs.Schema.RoundTrip

/-! Versions that were stored can be restored. As long as its project is not deleted, a version is
read back with the payload that was stored, its snapshot passes the rules and compiles to what was
compiled, and taking it through the stages again makes a new version of it unless the lock or the
database is in the way. -/

namespace Schemata

namespace Pipeline

/-- What becomes of a stored version that shall be live again: another user has the project, the
database cannot be connected to or refuses a statement and nothing is stored, or a new version of
the same payload is the active one of the scope and no version that was retired comes back. -/
inductive Restored (p : Pipeline) (now : Instant) (w : Workspace) (log : EngineLog)
    (version : Version) (errand : Errand) (result : RunResult) : Prop where
  | locked (refused : p.enter now w.locks version.scope = .error e)
      (unchanged : result = ⟨w, log, .error e.problem⟩)
  | unconnected
      (begun : Begun p now w log (.schema version.snapshot) errand version.snapshot taken c
        after (.error fault))
      (stopped : result.outcome = .error (.failure (.database fault.error)))
      (kept : result.workspace.registry = w.registry ∧ result.workspace.versions = w.versions)
  | unprovisioned
      (begun : Begun p now w log (.schema version.snapshot) errand version.snapshot taken c
        after (.ok report))
      (faulty : report.faults ≠ [])
      (stopped : ∃ trace?, result.outcome =
        .ok (.unprovisioned (validate (.schema version.snapshot) p.provisioner.limits) c
          ⟨report, trace?⟩))
      (kept : result.workspace.registry = w.registry ∧ result.workspace.versions = w.versions)
  | published
      (begun : Begun p now w log (.schema version.snapshot) errand version.snapshot taken c
        after (.ok report))
      (faultless : report.faults = [])
      (finished : ∃ trace? registration, result.outcome =
        .ok (.published (validate (.schema version.snapshot) p.provisioner.limits) c
          ⟨report, trace?⟩ new
          registration))
      (appended : result.workspace.versions.rows =
        VersionStore.retire version.scope w.versions.rows ++ [new.settled])
      (payload : new.settled.snapshot.payload = version.snapshot.payload)
      (live : result.workspace.versions.active? version.scope = some new.settled)
      (fresh : ∀ old ∈ w.versions.rows, old.id ≠ new.id)
      (retired : ∀ old ∈ w.versions.rows, old.active = false →
        ∀ later ∈ result.workspace.versions.rows, later.id = old.id → later.active = false)

variable {p : Pipeline} {now : Instant} {w : Workspace} {log : EngineLog} {version : Version}
  {user? description? : Option String}

theorem restoration_scope (own : ∀ user ∈ user?, user = "" ∨ user = version.scope.user)
    (description? : Option String) : (restoration version user? description?).scope =
      version.scope := by
  cases user? with
  | none => rfl
  | some user =>
    by_cases empty : user = ""
    · rw [empty]
      rfl
    · have same : user = version.scope.user := (own user rfl).resolve_left empty
      have given : Option.filter (· != "") (some user) = some user := if_pos (bne_iff_ne.mpr empty)
      rw [restoration, given, same]
      rfl

/-- What is needed to restore a version: the store is in order, nothing in it is in the way, and
what is read back passes the rules. -/
structure Restorable (limits : Limits) (store : VersionStore) (version : Version) : Prop where
  orderly : store.Orderly
  written : store.Written
  apart : store.Apart
  holds : store.Holds version
  passes : version.snapshot.passes limits = true

theorem Restorable.admitted {limits : Limits} {store : VersionStore}
    (restorable : Restorable limits store version) :
    VersionStore.Admitted limits store (.schema version.snapshot) version.scope
      version.snapshot := by
  obtain ⟨active, member⟩ := restorable.holds
  let row : Version := { version with active }
  have writable : row.snapshot.isWritable = true := restorable.written row member
  have free : store.isBlocked row.scope = false := restorable.apart.free restorable.orderly member
  exact ⟨if_pos restorable.passes, writable, free⟩

/-- A restorable version is restored for its own user. -/
theorem restore_restored (restorable : Restorable p.provisioner.limits w.versions version)
    (own : ∀ user ∈ user?, user = "" ∨ user = version.scope.user) (now : Instant) (log : EngineLog)
    (description? : Option String) :
    Restored p now w log version (restoration version user? description?)
      (p.restore now w log version.id user? description?) := by
  have admitted := restorable.admitted
  have scope := restoration_scope own description?
  obtain ⟨active, found⟩ := restorable.holds.version_eq restorable.orderly
  have running : p.restore now w log version.id user? description? =
      p.run now w log (.schema version.snapshot) (restoration version user? description?) := by
    rw [restore, found]
    rfl
  have same :
      ∀ schema, (validate (.schema version.snapshot) p.provisioner.limits).accepted? = some schema →
      schema = version.snapshot :=
        fun schema also => Option.some.inj (also.symm.trans admitted.accepted)
  -- What was stored passes, is written out and stands in nobody's way: only the lock and the
  -- database are left.
  have stops :=
    run_stops p now w log (.schema version.snapshot) (restoration version user? description?)
  rw [running]
  generalize restoration version user? description? = errand at scope stops ⊢
  generalize p.run now w log (.schema version.snapshot) errand = result at stops ⊢
  cases stops with
  | rejected refused =>
    rw [admitted.accepted] at refused
    cases refused
  | locked accepted refused => exact .locked (scope ▸ refused) rfl
  | unconnected begun =>
    obtain rfl := same _ begun.accepted
    exact .unconnected begun rfl ⟨rfl, rfl⟩
  | untraced begun unnoted =>
    obtain rfl := same _ begun.accepted
    have traceable := isTraceable_eq restorable.written errand version.snapshot
    exact absurd (fun _ => traceable.trans admitted.writable) unnoted
  | unprovisioned begun notable faulty =>
    obtain rfl := same _ begun.accepted
    exact .unprovisioned begun faulty ⟨_, rfl⟩ ⟨rfl, rfl⟩
  | unstored begun notable faultless hindered =>
    obtain rfl := same _ begun.accepted
    rw [scope] at hindered
    cases hindered with
    | unwritable buried =>
      rw [admitted.writable] at buried
      cases buried
    | blocked writable taken =>
      rw [admitted.free] at taken
      cases taken
  | published begun notable faultless granted =>
    obtain rfl := same _ begun.accepted
    have follows := VersionStore.Follows.create p.provisioner.limits now w.versions
      (.schema version.snapshot) errand.scope
      (if errand.description = "" then errand.intent else errand.description)
    rw [granted.create_eq] at follows
    refine .published begun faultless ⟨_, _, rfl⟩ ?_ (Schema.payload_settled _) ?_ ?_ ?_
    · rw [scope]
      rfl
    · rw [← scope]
      exact VersionStore.active?_grown rfl rfl
    · intro old member
      exact restorable.orderly.fresh member
    · exact fun old member retired => follows.inactive restorable.orderly member retired

end Pipeline

/-- What is stored of a schema: it is found under its identifier, it reads back as it was written,
it passes the rules and compiles to the same script, and it can be restored. -/
structure Faithful (limits : Limits) (store : VersionStore) (version : Version)
    (schema : Schema) : Prop where
  found : ∃ active, store.version version.id = .ok { version with active }
  payload : version.snapshot.payload = schema.payload
  read : Schema.decode schema.payload = .valid version.snapshot
  passes : (validate (.schema version.snapshot) limits).passed = true
  compiles : ∀ options, ∃ c, Ddl.compile limits options schema = .ok c ∧
    Ddl.compile limits options version.snapshot = .ok c
  restores : ∀ (p : Pipeline) now (w : Workspace) log user? description?,
    p.provisioner.limits = limits →
    w.versions = store → (∀ user ∈ user?, user = "" ∨ user = version.scope.user) →
    Pipeline.Restored p now w log version (Pipeline.restoration version user? description?)
      (p.restore now w log version.id user? description?)

namespace Archive

variable {archive : Archive} {limits : Limits} {candidate : Candidate} {scope : Scope}
  {schema : Schema} {requests later : List Request}

private theorem run_append (archive : Archive) (requests later : List Request) :
    archive.run (requests ++ later) = (archive.run requests).run later := List.foldl_append

/-- A version that was just stored can be restored as long as its project is there. -/
theorem run_restorable (orderly : archive.versions.Orderly) (written : archive.versions.Written)
    (apart : archive.versions.Apart)
    (admitted : VersionStore.Admitted limits archive.versions candidate scope schema)
    (now : Instant) (description : String) (spared : ∀ request ∈ later,
      request ≠ .deleteProject scope.project?) :
    Pipeline.Restorable limits
      (archive.run (.create limits now candidate scope description :: later)).versions
      (archive.versions.next now scope schema description).settled where
  orderly := run_orderly orderly _
  written := run_written written _
  apart := run_apart apart _
  holds := by
    have stored : (archive.serve (.create limits now candidate scope description)).versions.Holds
        (archive.versions.next now scope schema description).settled := by
      rw [serve, admitted.create_eq]
      exact VersionStore.holds_grown
    have kept := run_holds stored spared
    exact kept
  passes := (schema.passes_settled limits).trans (passes_of_accepted admitted.accepted)

/-- Whatever is asked of an archive after a version was stored, the version stays faithful to its
schema until its project is deleted. -/
theorem create_faithful (traces? : Option TraceLog) (requests later : List Request)
    (limits : Limits) (now : Instant) (candidate : Candidate) (scope : Scope) (description : String)
    (version : Version)
    (made : (VersionStore.create limits now ((empty traces?).run requests).versions candidate scope
      description).2 = .ok version)
    (spared : ∀ request ∈ later, request ≠ .deleteProject scope.project?) :
    version.scope = scope ∧ ∃ schema, (validate candidate limits).accepted? = some schema ∧
      version.snapshot = schema ∧ Faithful limits
        ((empty traces?).run (requests ++ .create limits now candidate scope
          description :: later)).versions
        version.settled schema := by
  obtain ⟨schema, admitted, rfl⟩ := VersionStore.exists_admitted made
  have restorable := run_restorable (run_orderly VersionStore.empty_orderly requests)
    (run_written VersionStore.empty_written requests) (run_apart VersionStore.empty_apart requests)
    admitted now description spared
  have passes : schema.passes limits = true := passes_of_accepted admitted.accepted
  refine ⟨rfl, schema, admitted.accepted, rfl, ?_⟩
  rw [run_append]
  refine ⟨restorable.holds.version_eq restorable.orderly, schema.payload_settled,
    schema.decode_payload, restorable.passes, fun options => ?_, ?_⟩
  · have compiled : Ddl.compile limits options schema =
        .ok (.ofSchema options schema) := if_pos passes
    exact ⟨_, compiled, (schema.compile_settled limits options).trans compiled⟩
  · rintro p now w log user? description? rfl stored own
    rw [← stored] at restorable
    exact Pipeline.restore_restored restorable own now log description?

/-- Hints with one that no payload has, as its value is `null`. -/
def vagueHints : Hints :=
  { Hints.none with
    extras := [("layout", .null)]
    extras_fresh := by simp [hintNames]
    extras_plain := by simp [Json.isPlain] }

/-- Deals and companies with such hints stay what they were after a later version and the loss of
another project. -/
theorem vague_deals_faithful :
    let schema := Schema.deals.withHints vagueHints
    let scope : Scope := ⟨some "crm", "ada"⟩
    let later : List Request := [.create .standard (.ofSeconds 2) (.schema .deals) scope "Second",
      .deleteProject (some "shop")]
    let version := VersionStore.empty.next (.ofSeconds 1) scope schema "First"
    (VersionStore.create .standard (.ofSeconds 1) VersionStore.empty (.schema schema)
      scope "First").2 =
        .ok version ∧
      (∀ request ∈ later, request ≠ .deleteProject scope.project?) ∧
      Faithful .standard
        ((empty none).run (.create .standard (.ofSeconds 1) (.schema schema) scope
          "First" :: later)).versions
        version.settled schema := by
  intro schema scope later version
  have deals : Schema.deals.passes .standard = true := Schema.deals_passed
  have passes : schema.passes .standard = true := by
    rw [Schema.passes, Schema.violations_withHints, ← Schema.passes, deals]
  have admitted : VersionStore.Admitted .standard .empty (.schema schema) scope schema :=
    ⟨if_pos passes, by decide, rfl⟩
  have created := admitted.create_eq (.ofSeconds 1) "First"
  have made : (VersionStore.create .standard (.ofSeconds 1) ((empty none).run []).versions
      (.schema schema) scope "First").2 = .ok version := congrArg Prod.snd created
  have spared : ∀ request ∈ later, request ≠ .deleteProject scope.project? := by
    intro request member deleted
    subst deleted
    simp [later, scope] at member
  obtain ⟨-, stored, accepted, -, faithful⟩ :=
    create_faithful none [] later .standard (.ofSeconds 1)
    (.schema schema) scope "First" version made spared
  have same : stored = schema := Option.some.inj (accepted.symm.trans admitted.accepted)
  rw [List.nil_append, same] at faithful
  exact ⟨made, spared, faithful⟩

end Archive

end Schemata
