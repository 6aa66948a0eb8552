import Schemata.Proofs.Lock.Acquisition
import Schemata.Proofs.Pipeline.Stages
import Schemata.Proofs.Provisioning.Accounting
import Schemata.Proofs.Schema.Depth
import Schemata.Proofs.Shape.Explained

/-! The gates of a run. It ends at exactly one of them, and what it leaves is known for each: which
parts of the workspace are as they were, and what came in where they are not. -/

namespace Schemata

variable {settings : Settings} {p : Pipeline} {now : Instant} {w : Workspace} {log : EngineLog}
  {candidate : Candidate} {errand : Errand} {project : String}

theorem LockTerms.granted_ofSettings (consistent : settings.conflict? = none) :
    leastLockMinutes ≤ (ofSettings settings).usual ∧
      (ofSettings settings).usual ≤ (ofSettings settings).longest := by
  unfold Settings.conflict? at consistent
  split at consistent
  · cases consistent
  split at consistent
  · cases consistent
  split at consistent
  · cases consistent
  rename_i least longest
  exact ⟨Int.not_lt.mp least, Int.not_lt.mp longest⟩

namespace Pipeline

/-- A pipeline in use: its locks last as consistent settings say, what it runs is traced, and no
table is left out. -/
structure Deployed (p : Pipeline) (settings : Settings) : Prop where
  locks : p.lockTerms? = some (.ofSettings settings)
  consistent : settings.conflict? = none
  traced : p.provisioner.traced = true
  converts : p.convert = .usual

/-- Either somebody else holds the project, or its lock is taken, and given back in the end. -/
theorem enter_cases (deployed : p.Deployed settings) (named : errand.scope.project? = some project)
    (now : Instant) (locks : LockTable) :
    (∃ lock, locks.lock? now project = some lock ∧ lock.user ≠ errand.scope.user ∧
      p.enter now locks errand.scope = .error (.held lock)) ∨
    (∀ lock, locks.lock? now project = some lock → lock.user = errand.scope.user) ∧
      ∃ taken, p.enter now locks errand.scope = .ok taken ∧
        p.leave taken errand.scope = locks.others project := by
  have entering : p.enter now locks errand.scope =
      (locks.acquire (.ofSettings settings) now project errand.scope.user none).map (·.1) := by
    simp only [enter, deployed.locks, named, LockTable.enter]
    cases locks.acquire (.ofSettings settings) now project errand.scope.user none <;> rfl
  cases made : locks.acquire (.ofSettings settings) now project errand.scope.user none with
  | error refused =>
    rw [made] at entering
    rcases LockTable.acquire_refused made with ⟨bounds, -⟩ | ⟨lock, held, foreign, rfl⟩
    · exact absurd (LockTerms.granted_ofSettings deployed.consistent) bounds
    · exact .inl ⟨lock, held, foreign, entering⟩
  | ok got =>
    rw [made] at entering
    have acquired := LockTable.acquired made
    refine .inr ⟨acquired.unopposed, got.1, entering, ?_⟩
    simp only [leave, deployed.locks, named]
    rw [acquired.heldBy.leave, acquired.others]

/-- A candidate is accepted, nobody else holds the project, and the statements of its schema go to
the engine. -/
structure Executed (p : Pipeline) (now : Instant) (w : Workspace) (log : EngineLog)
    (candidate : Candidate) (errand : Errand) (project : String) (schema : Schema)
    (c : Ddl.Compilation) (after : EngineLog)
    (run : Except EngineFault ExecutionReport) : Prop where
  accepted : (validate candidate p.provisioner.limits).accepted? = some schema
  unopposed : ∀ lock, w.locks.lock? now project = some lock → lock.user = errand.scope.user
  compiled : Ddl.compile p.provisioner.limits p.options schema = .ok c
  executed : p.provisioner.execution.execute p.provisioner.engine log c = (after, run)

/-- Where a run can end. -/
inductive Gate where
  | check
  | lock
  | connect
  | trace
  | provision
  | publish
  deriving DecidableEq, Repr

/-- How a run ends at a gate: what it needs to come there, and all that it leaves. -/
inductive Ends (p : Pipeline) (now : Instant) (w : Workspace) (log : EngineLog)
    (candidate : Candidate) (errand : Errand) (project : String) : Gate → RunResult → Prop where
  | check (failed : (validate candidate p.provisioner.limits).passed = false) :
      Ends p now w log candidate errand project .check
        ⟨w, log, .ok (.rejected (validate candidate p.provisioner.limits))⟩
  | lock (passed : (validate candidate p.provisioner.limits).passed = true)
      (held : w.locks.lock? now project = some lock) (foreign : lock.user ≠ errand.scope.user) :
      Ends p now w log candidate errand project .lock ⟨w, log, .error (LockError.held lock).problem⟩
  | connect (ran : Executed p now w log candidate errand project schema c after (.error fault)) :
      Ends p now w log candidate errand project .connect
        ⟨{ w with locks := w.locks.others project }, after,
          .error (.failure (.database fault.error))⟩
  | trace (ran : Executed p now w log candidate errand project schema c after (.ok report))
      (unwritable : schema.isWritable = false) :
      Ends p now w log candidate errand project .trace
        ⟨{ w with locks := w.locks.others project }, after, .error .tooDeep⟩
  | provision (ran : Executed p now w log candidate errand project schema c after (.ok report))
      (writable : schema.isWritable = true) (faulty : report.faults ≠ []) :
      Ends p now w log candidate errand project .provision
        ⟨{ w with
            locks := w.locks.others project
            traces := (tracedRun now w errand schema report).1 },
          after,
          .ok (.unprovisioned (validate candidate p.provisioner.limits) c
            ⟨report, some (tracedRun now w errand schema report).2.id⟩)⟩
  | publish (ran : Executed p now w log candidate errand project schema c after (.ok report))
      (writable : schema.isWritable = true) (faultless : report.faults = [])
      (published : Registry.Published w.registry schema (before? w errand) registry registration)
      (live : (w.versions.grown errand.scope (storedVersion now w errand schema)).active?
        errand.scope =
        some (storedVersion now w errand schema).settled)
      (snapshot : (storedVersion now w errand schema).snapshot = schema ∧
        (storedVersion now w errand schema).settled.snapshot.payload = schema.payload) :
      Ends p now w log candidate errand project .publish
        ⟨{ registry
           versions := w.versions.grown errand.scope (storedVersion now w errand schema)
           traces := (tracedRun now w errand schema report).1
           locks := w.locks.others project },
          after,
          .ok (.published (validate candidate p.provisioner.limits) c
            ⟨report, some (tracedRun now w errand schema report).2.id⟩
              (storedVersion now w errand schema)
            registration)⟩

/-- The gate that a result shows. -/
def gateOf (result : RunResult) : Gate :=
  match result.outcome with
  | .ok (.rejected _) => .check
  | .error (.failure (.database _)) => .connect
  | .error .tooDeep => .trace
  | .error _ => .lock
  | .ok (.unprovisioned ..) => .provision
  | .ok (.published ..) => .publish

theorem Ends.eq_gateOf (ends : Ends p now w log candidate errand project gate result) :
    gate = gateOf result := by
  cases ends <;> rfl

theorem notable_iff (traced : p.provisioner.traced = true) (written : w.versions.Written) :
    p.Notable w errand schema ↔ schema.isWritable = true := by
  simp only [Notable, traced, isTraceable_eq written, true_implies]

theorem noted_eq (traced : p.provisioner.traced = true) :
    p.noted now w errand schema report = ((tracedRun now w errand schema report).1,
      some (tracedRun now w errand schema report).2.id) := if_pos traced

private theorem Begun.executes
    (begun : Begun p now w log candidate errand schema taken c after outcome)
    (unopposed : ∀ lock, w.locks.lock? now project = some lock → lock.user = errand.scope.user) :
    Executed p now w log candidate errand project schema c after outcome :=
  ⟨begun.accepted, unopposed, begun.compiled, begun.executed⟩

/-- A run that got its lock ends behind it. -/
theorem run_ends_unlocked (deployed : p.Deployed settings)
    (named : errand.scope.project? = some project) (nonempty : project ≠ "")
    (written : w.versions.Written) (accepted : (validate candidate p.provisioner.limits).accepted? =
      some schema)
    (unopposed : ∀ lock, w.locks.lock? now project = some lock → lock.user = errand.scope.user)
    (entered : p.enter now w.locks errand.scope = .ok taken)
    (left : p.leave taken errand.scope = w.locks.others project) (log : EngineLog) :
    ∃ gate, Ends p now w log candidate errand project gate (p.run now w log candidate errand) := by
  have stops := p.run_stops now w log candidate errand
  have back : ∀ locks, p.enter now w.locks errand.scope = .ok locks →
      p.leave locks errand.scope = w.locks.others project :=
    fun locks also => Except.ok.inj (entered.symm.trans also) ▸ left
  generalize p.run now w log candidate errand = result at stops ⊢
  cases stops with
  | rejected refused =>
    rw [accepted] at refused
    cases refused
  | locked _ refused =>
    rw [entered] at refused
    cases refused
  | unconnected begun =>
    rw [back _ begun.entered]
    exact ⟨.connect, .connect (begun.executes unopposed)⟩
  | untraced begun unnoted =>
    rw [notable_iff deployed.traced written, Bool.not_eq_true] at unnoted
    rw [back _ begun.entered]
    exact ⟨.trace, .trace (begun.executes unopposed) unnoted⟩
  | unprovisioned begun notable faulty =>
    have writable := (notable_iff deployed.traced written).mp notable
    rw [back _ begun.entered, noted_eq deployed.traced]
    exact ⟨.provision, .provision (begun.executes unopposed) writable faulty⟩
  | unstored begun notable _ hindered =>
    have writable := (notable_iff deployed.traced written).mp notable
    -- Clashes come from missing names, and this project has one.
    cases hindered with
    | unwritable buried =>
      rw [writable] at buried
      cases buried
    | blocked _ blocked =>
      rw [VersionStore.isBlocked_named named nonempty] at blocked
      cases blocked
  | @published schema _ _ _ _ begun notable faultless _ =>
    have writable := (notable_iff deployed.traced written).mp notable
    have published :=
      publish_accepted deployed.converts begun.accepted now w.registry (before? w errand)
    rw [back _ begun.entered, noted_eq deployed.traced]
    exact ⟨.publish, .publish (begun.executes unopposed) writable faultless published
      (VersionStore.active?_grown rfl rfl) ⟨rfl, schema.payload_settled⟩⟩

/-- Runs store nothing that cannot be written out. -/
theorem run_written (written : w.versions.Written) (p : Pipeline) (now : Instant) (log : EngineLog)
    (candidate : Candidate) (errand : Errand) :
    (p.run now w log candidate errand).workspace.versions.Written := by
  obtain ⟨requests, stored⟩ := p.run_versions now w log candidate errand
  rw [stored]
  exact Archive.run_written written requests

/-- A run ends at exactly one gate: rejected or locked out with everything as it was, without a
connection for its script, with its statements run and no trace of them when the schema cannot be
written out, provisioned in part with one trace and nothing stored, or published. -/
theorem run_ends (deployed : p.Deployed settings) (named : errand.scope.project? = some project)
    (nonempty : project ≠ "") (written : w.versions.Written) (now : Instant) (log : EngineLog)
    (candidate : Candidate) :
    ∃! gate, Ends p now w log candidate errand project gate (p.run now w log candidate errand) := by
  suffices ends :
      ∃ gate, Ends p now w log candidate errand project gate (p.run now w log candidate errand) by
    obtain ⟨gate, ends⟩ := ends
    exact ⟨gate, ends, fun other also => also.eq_gateOf.trans ends.eq_gateOf.symm⟩
  cases accepted : (validate candidate p.provisioner.limits).accepted? with
  | none =>
    have failed : (validate candidate p.provisioner.limits).passed = false := by
      refine Bool.eq_false_iff.mpr fun passed => ?_
      obtain ⟨schema, found⟩ := (passed_iff_accepted candidate _).mp passed
      rw [accepted] at found
      cases found
    refine ⟨.check, ?_⟩
    rw [run, accepted]
    exact .check failed
  | some schema =>
    rcases enter_cases deployed named now w.locks with
      ⟨lock, held, foreign, entered⟩ | ⟨unopposed, taken, entered, left⟩
    · refine ⟨.lock, ?_⟩
      rw [run, accepted]
      dsimp only
      rw [entered]
      exact .lock ((passed_iff_accepted candidate _).mpr ⟨schema, accepted⟩) held foreign
    · exact run_ends_unlocked deployed named nonempty written accepted unopposed entered left log

/-- The pipeline of the standard settings, in front of a database that refuses nothing. -/
def standard : Pipeline where
  provisioner := ⟨.standard, .atomic, .willing, true⟩
  options := .standard
  lockTerms? := some (.ofSettings .standard)
  convert := .usual

theorem standard_deployed : standard.Deployed .standard := ⟨rfl, rfl, rfl, rfl⟩

def launch : Errand := ⟨⟨some "crm", "ada"⟩, "", "Provision schema", none⟩

set_option maxRecDepth 100000 in
/-- Deals and companies are published on the first run. -/
theorem deals_run_ends :
    standard.Deployed .standard ∧ launch.scope.project? = some "crm" ∧ "crm" ≠ "" ∧
      Workspace.empty.versions.Written ∧
      Ends standard (.ofSeconds 1) .empty [] (.schema .deals) launch "crm" .publish
        (standard.run (.ofSeconds 1) .empty [] (.schema .deals) launch) := by
  have written : Workspace.empty.versions.Written := VersionStore.empty_written
  have once : ∃! gate, Ends standard (.ofSeconds 1) .empty [] (.schema .deals) launch "crm" gate
      (standard.run (.ofSeconds 1) .empty [] (.schema .deals) launch) :=
    run_ends standard_deployed rfl (by decide) written (.ofSeconds 1) [] (.schema .deals)
  obtain ⟨gate, ends, -⟩ := once
  have publish : gate = .publish := ends.eq_gateOf.trans (by decide +kernel)
  exact ⟨standard_deployed, rfl, by decide, written, publish ▸ ends⟩

/-- Statements may be run without a trace: all it takes is a schema that passes the rules and cannot
be written out. -/
theorem run_untraced (deployed : p.Deployed settings) (named : errand.scope.project? = some project)
    (nonempty : project ≠ "") (written : w.versions.Written)
    (accepted : (validate candidate p.provisioner.limits).accepted? = some schema)
    (unwritable : schema.isWritable = false)
    (unopposed : ∀ lock, w.locks.lock? now project = some lock → lock.user = errand.scope.user)
    (connects : p.provisioner.engine.Connects) (log : EngineLog) :
    Ends p now w log candidate errand project .trace (p.run now w log candidate errand) := by
  rcases enter_cases deployed named now w.locks with
    ⟨lock, held, foreign, -⟩ | ⟨-, taken, entered, left⟩
  · exact absurd (unopposed lock held) foreign
  obtain ⟨gate, ends⟩ :=
    run_ends_unlocked deployed named nonempty written accepted unopposed entered left log
  generalize p.run now w log candidate errand = result at ends ⊢
  have same : ∀ other, (validate candidate p.provisioner.limits).accepted? = some other →
      other = schema := fun other also => Option.some.inj (also.symm.trans accepted)
  cases ends with
  | check failed =>
    have passed := (passed_iff_accepted candidate _).mpr ⟨schema, accepted⟩
    rw [failed] at passed
    cases passed
  | lock _ held foreign => exact absurd (unopposed _ held) foreign
  | @connect _ c _ _ ran =>
    obtain ⟨_, report, reported⟩ := execute_reports connects p.provisioner.execution log c
    cases reported.symm.trans ran.executed
  | trace ran unwritable => exact .trace ran unwritable
  | provision ran writable _ =>
    rw [same _ ran.accepted, unwritable] at writable
    cases writable
  | publish ran writable _ _ _ _ =>
    rw [same _ ran.accepted, unwritable] at writable
    cases writable

/-- Not every run that gets past the lock leaves a trace. -/
theorem run_not_always_traced : ¬ ∀ (p : Pipeline) settings now w log candidate errand project,
    p.Deployed settings → p.provisioner.engine.Connects → errand.scope.project? = some project →
    project ≠ "" → w.versions.Written →
    ∃ gate ∈ [Gate.check, .lock, .provision, .publish],
      Ends p now w log candidate errand project gate (p.run now w log candidate errand) := by
  intro traced
  obtain ⟨gate, known, ends⟩ := traced standard .standard (.ofSeconds 1) .empty [] (.schema .buried)
    launch "crm" standard_deployed (fun _ => rfl) rfl (by decide) VersionStore.empty_written
  have accepted : (validate (.schema .buried) standard.provisioner.limits).accepted? =
      some .buried :=
    if_pos Schema.buried_passed
  have free : ∀ lock, Workspace.empty.locks.lock? (.ofSeconds 1) "crm" = some lock →
      lock.user = launch.scope.user := by
    intro lock held
    cases held
  have untraced : Ends standard (.ofSeconds 1) .empty [] (.schema .buried) launch "crm" .trace _ :=
    run_untraced standard_deployed rfl (by decide) VersionStore.empty_written accepted
      Schema.buried_unwritable free (fun _ => rfl) []
  have trace : gate = .trace := ends.eq_gateOf.trans untraced.eq_gateOf.symm
  exact absurd known (trace ▸ by decide)

end Pipeline

end Schemata
