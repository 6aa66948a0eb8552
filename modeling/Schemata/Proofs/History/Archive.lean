import Schemata.History.Trace
import Schemata.Proofs.History.Store

/-! Everything that the history of schemas holds, over any run of requests: after each of them the
versions of every scope are numbered, the newest one is live, and a version that was replaced stays
replaced. -/

namespace Schemata

/-- The stored versions, with the log of decisions when there is one. -/
structure Archive where
  versions : VersionStore
  traces? : Option TraceLog

namespace Archive

/-- What is asked of an archive. All reads are one request: they answer from the state and leave it
as it is. -/
inductive Request where
  | create (limits : Limits) (now : Instant) (candidate : Candidate) (scope : Scope)
    (description : String)
  | deleteProject (project? : Option String)
  | record (now : Instant) (decision : Decision)
  | read

def empty (traces? : Option TraceLog) : Archive := ⟨.empty, traces?⟩

/-- Removes the versions and the decisions of a project, and counts the versions. -/
def deleteProject (archive : Archive) (project? : Option String) : Archive × Nat :=
  let (versions, removed) := archive.versions.deleteProject project?
  (⟨versions, archive.traces?.map fun log => (log.deleteProject project?).1⟩, removed)

def serve (archive : Archive) : Request → Archive
  | .create limits now candidate scope description =>
    { archive with
      versions := (VersionStore.create limits now archive.versions candidate scope description).1 }
  | .deleteProject project? => (archive.deleteProject project?).1
  | .record now decision =>
    { archive with traces? := archive.traces?.map fun log => (log.append now decision).1 }
  | .read => archive

def run (archive : Archive) (requests : List Request) : Archive := requests.foldl serve archive

/-- What holds of the versions of one scope: they have the revisions from one on, the one of the
highest revision is the active one, and the newest ones are listed by descending revision. -/
structure Live (archive : Archive) (scope : Scope) : Prop where
  revisions : (archive.versions.ofScope scope).map (·.revision) =
    List.range' 1 (archive.versions.ofScope scope).length
  active : archive.versions.ofScope scope ≠ [] → ∃ row ∈ archive.versions.ofScope scope,
    row.revision = (archive.versions.ofScope scope).length ∧
    archive.versions.active? scope = some row ∧
    ∀ other ∈ archive.versions.ofScope scope, other.active = true ↔ other = row
  listed : ∀ limit : Nat, 1 ≤ limit →
    (∀ row ∈ archive.versions.newest scope limit, row ∈ archive.versions.ofScope scope) ∧
    (archive.versions.newest scope limit).map (·.revision) =
      (List.range (min limit (archive.versions.ofScope scope).length)).map fun i =>
        (archive.versions.ofScope scope).length - i

/-- What holds of an archive, and of all that becomes of it. -/
structure Kept (archive : Archive) : Prop where
  live : ∀ scope, archive.Live scope
  retired : ∀ row ∈ archive.versions.rows, row.active = false → ∀ requests,
    ∀ later ∈ (archive.run requests).versions.rows, later.id = row.id → later.active = false
  refused : ∀ limits now candidate scope description problem,
    (VersionStore.create limits now archive.versions candidate scope description).2 =
      .error problem →
    (VersionStore.create limits now archive.versions candidate scope description).1.rows =
      archive.versions.rows
  deleted : ∀ project?,
    (archive.deleteProject project?).1.versions.rows =
      archive.versions.rows.filter (fun row => row.scope.project? ≠ project?) ∧
    (archive.deleteProject project?).1.traces?.map (·.rows) = archive.traces?.map (fun log =>
      log.rows.filter fun row => row.decision.scope.project? ≠ project?) ∧
    (archive.deleteProject project?).2 =
      (archive.versions.rows.filter fun row => row.scope.project? = project?).length

variable {archive : Archive}

/-- What holds of the versions at first, and is kept when one is stored and when a project that is
asked for is deleted, holds after all requests. -/
theorem run_induction {motive : VersionStore → Prop} (start : motive archive.versions)
    (create : ∀ store limits now candidate scope description, motive store →
      motive (VersionStore.create limits now store candidate scope description).1)
    (delete : ∀ store project?, .deleteProject project? ∈ requests → motive store →
      motive (store.deleteProject project?).1) :
    motive (archive.run requests).versions := by
  induction requests generalizing archive with
  | nil => exact start
  | cons request rest ih =>
    refine ih ?_ fun store project? member => delete store project? (List.mem_cons_of_mem _ member)
    cases request with
    | create limits now candidate scope description => exact create _ _ _ _ _ _ start
    | deleteProject project? => exact delete _ _ (List.mem_cons_self ..) start
    | record now decision => exact start
    | read => exact start

theorem run_orderly (orderly : archive.versions.Orderly) (requests : List Request) :
    (archive.run requests).versions.Orderly :=
  run_induction orderly
    (fun _ limits now candidate scope description kept =>
      kept.create limits now candidate scope description)
    fun _ project? _ kept => kept.delete project?

private theorem run_follows (archive : Archive) (requests : List Request) :
    archive.versions.Follows (archive.run requests).versions :=
  run_induction (.refl _) (fun _ _ _ _ _ _ follows => follows.trans (.create ..))
    fun _ _ _ follows => follows.trans (.delete ..)

private theorem live_of_numbered (numbered : Numbered (archive.versions.ofScope scope)) :
    archive.Live scope where
  revisions := numbered.revisions
  active := numbered.exists_newest
  listed limit _ := by
    have rows : archive.versions.newest scope limit =
        (archive.versions.ofScope scope).reverse.take limit := by
      simp [VersionStore.newest, upTo]
    rw [rows]
    exact ⟨fun row member => List.mem_reverse.mp (List.mem_of_mem_take member),
      numbered.take_reverse limit⟩

private theorem kept_of_orderly (orderly : archive.versions.Orderly) : archive.Kept where
  live scope := live_of_numbered (orderly.numbered scope)
  retired row member inactive requests :=
    (run_follows archive requests).inactive orderly member inactive
  refused limits now candidate scope description problem failed := by
    rcases VersionStore.create_cases limits now archive.versions candidate scope description with
      ⟨issued, cause, -, made⟩ | ⟨version, -, -, -, -, made⟩
    · rw [made]
    · rw [made] at failed
      cases failed
  deleted project? := by
    refine ⟨?_, ?_, archive.versions.deleteProject_count project?⟩
    · exact List.filter_congr fun row _ => by simp [bne, beq_eq_decide]
    · cases traces : archive.traces? with
      | none => simp [deleteProject, traces]
      | some log => simp [deleteProject, traces, TraceLog.deleteProject, bne, beq_eq_decide]

/-- Whatever is asked of an archive, and in whatever order, it is kept as it should be. -/
theorem run_kept (traces? : Option TraceLog) (requests : List Request) :
    ((empty traces?).run requests).Kept :=
  kept_of_orderly (run_orderly VersionStore.empty_orderly requests)

end Archive

end Schemata
