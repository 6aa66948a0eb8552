import Schemata.Pipeline.Run
import Schemata.Proofs.History.Written
import Schemata.Proofs.Resource.Publication

/-! Where the run of any pipeline stops, and all that it leaves there: whatever the project is,
whether locks are taken and runs are traced or not, and whichever tables can be converted. -/

namespace Schemata

theorem verify_compiled {limits : Limits} {options : Ddl.Options} {c : Ddl.Compilation}
    (compiled : Ddl.compile limits options schema = .ok c) :
    verify limits (.compiled c) schema = .ok c := by
  have same : c = .ofSchema options schema := by
    unfold Ddl.compile at compiled
    split at compiled
    · exact (Except.ok.inj compiled).symm
    · cases compiled
  have again : Ddl.compile limits c.options schema = .ok c := by
    rw [same] at compiled ⊢; exact compiled
  simp only [verify, again]
  exact if_pos rfl

namespace Pipeline

/-- The schema that was live when a run began. -/
def before? (w : Workspace) (errand : Errand) : Option Schema :=
  (w.versions.active? errand.scope).map (·.snapshot)

/-- The trace log behind a run. -/
def tracedRun (now : Instant) (w : Workspace) (errand : Errand) (schema : Schema)
    (report : ExecutionReport) :
    TraceLog × Trace :=
  w.traces.append now (report.decision schema
    ⟨errand.scope, errand.intent, errand.precedent?, before? w errand⟩)

/-- The version that a run stores. -/
def storedVersion (now : Instant) (w : Workspace) (errand : Errand) (schema : Schema) : Version :=
  w.versions.next now errand.scope schema
    (if errand.description = "" then errand.intent else errand.description)

/-- What is known of a run when it is provisioned. -/
def context (w : Workspace) (errand : Errand) : ProvisioningContext :=
  ⟨errand.scope, errand.intent, errand.precedent?, before? w errand⟩

/-- The trace log behind a run, and the identifier of its trace when runs are traced. -/
def noted (p : Pipeline) (now : Instant) (w : Workspace) (errand : Errand) (schema : Schema)
    (report : ExecutionReport) : TraceLog × Option String :=
  if p.provisioner.traced then
    ((tracedRun now w errand schema report).1, some (tracedRun now w errand schema report).2.id)
  else (w.traces, none)

/-- Whether a run on a schema can leave the trace that it has to leave. -/
def Notable (p : Pipeline) (w : Workspace) (errand : Errand) (schema : Schema) : Prop :=
  p.provisioner.traced = true → (context w errand).isTraceable schema = true

/-- A run that gave its statements to the engine: its candidate is accepted and its lock is
taken. -/
structure Begun (p : Pipeline) (now : Instant) (w : Workspace) (log : EngineLog)
    (candidate : Candidate) (errand : Errand) (schema : Schema) (taken : LockTable)
    (c : Ddl.Compilation) (after : EngineLog)
    (run : Except EngineFault ExecutionReport) : Prop where
  accepted : (validate candidate p.provisioner.limits).accepted? = some schema
  entered : p.enter now w.locks errand.scope = .ok taken
  compiled : Ddl.compile p.provisioner.limits p.options schema = .ok c
  executed : p.provisioner.execution.execute p.provisioner.engine log c = (after, run)

/-- Where a run stops, and what it gives back there. -/
inductive Stops (p : Pipeline) (now : Instant) (w : Workspace) (log : EngineLog)
    (candidate : Candidate) (errand : Errand) : RunResult → Prop where
  | rejected (refused : (validate candidate p.provisioner.limits).accepted? = none) :
      Stops p now w log candidate errand
        ⟨w, log, .ok (.rejected (validate candidate p.provisioner.limits))⟩
  | locked (accepted : (validate candidate p.provisioner.limits).accepted? = some schema)
      (refused : p.enter now w.locks errand.scope = .error e) :
      Stops p now w log candidate errand ⟨w, log, .error e.problem⟩
  | unconnected (begun : Begun p now w log candidate errand schema taken c after (.error fault)) :
      Stops p now w log candidate errand
        ⟨{ w with locks := p.leave taken errand.scope }, after,
          .error (ProvisionError.unconnected fault).problem⟩
  | untraced (begun : Begun p now w log candidate errand schema taken c after (.ok report))
      (unnoted : ¬ p.Notable w errand schema) :
      Stops p now w log candidate errand
        ⟨{ w with locks := p.leave taken errand.scope }, after, .error .tooDeep⟩
  | unprovisioned (begun : Begun p now w log candidate errand schema taken c after (.ok report))
      (notable : p.Notable w errand schema) (faulty : report.faults ≠ []) :
      Stops p now w log candidate errand
        ⟨{ w with
            locks := p.leave taken errand.scope
            traces := (p.noted now w errand schema report).1 },
          after,
          .ok (.unprovisioned (validate candidate p.provisioner.limits) c
            ⟨report, (p.noted now w errand schema report).2⟩)⟩
  | unstored (begun : Begun p now w log candidate errand schema taken c after (.ok report))
      (notable : p.Notable w errand schema) (faultless : report.faults = [])
      (hindered : w.versions.Hindered errand.scope schema problem) :
      Stops p now w log candidate errand
        ⟨{ w with
            versions := ⟨w.versions.rows, w.versions.issued + 1⟩
            locks := p.leave taken errand.scope
            traces := (p.noted now w errand schema report).1 },
          after, .error problem⟩
  | published (begun : Begun p now w log candidate errand schema taken c after (.ok report))
      (notable : p.Notable w errand schema) (faultless : report.faults = [])
      (admitted : VersionStore.Admitted p.provisioner.limits w.versions (.schema schema)
        errand.scope schema) :
      Stops p now w log candidate errand
        ⟨{ registry := (w.registry.publish p.convert now schema (before? w errand)).1
           versions := w.versions.grown errand.scope (storedVersion now w errand schema)
           traces := (p.noted now w errand schema report).1
           locks := p.leave taken errand.scope },
          after,
          .ok (.published (validate candidate p.provisioner.limits) c
            ⟨report, (p.noted now w errand schema report).2⟩ (storedVersion now w errand schema)
            (w.registry.publish p.convert now schema (before? w errand)).2)⟩

variable {p : Pipeline} {now : Instant} {w : Workspace} {log after : EngineLog}
  {candidate : Candidate} {errand : Errand} {schema : Schema} {c : Ddl.Compilation}
  {report : ExecutionReport} {taken : LockTable} {run : Except EngineFault ExecutionReport}

/-! ### Provisioning -/

/-- A stored schema can be written out, so only the next one decides whether a run can be traced. -/
theorem isTraceable_eq (written : w.versions.Written) (errand : Errand) (schema : Schema) :
    (context w errand).isTraceable schema = schema.isWritable := by
  have earlier : (before? w errand).all Schema.isWritable = true := by
    cases live : w.versions.active? errand.scope with
    | none => simp [before?, live]
    | some version => simp [before?, live, written.active? live]
  rw [ProvisioningContext.isTraceable, context, earlier, Bool.true_and]

theorem provision_unconnected (compiled : Ddl.compile p.provisioner.limits p.options schema = .ok c)
    (executed : p.provisioner.execution.execute p.provisioner.engine log c = (after, .error fault))
    (now : Instant) :
    p.provisioner.provision now log w.traces (.compiled c) schema (context w errand) =
      (after, w.traces, .error (.unconnected fault)) := by
  simp only [Provisioner.provision, verify_compiled compiled, executed]

theorem provision_unnoted (compiled : Ddl.compile p.provisioner.limits p.options schema = .ok c)
    (executed : p.provisioner.execution.execute p.provisioner.engine log c = (after, .ok report))
    (unnoted : ¬ p.Notable w errand schema) (now : Instant) :
    p.provisioner.provision now log w.traces (.compiled c) schema (context w errand) =
      (after, w.traces, .error .untraceable) := by
  obtain ⟨traced, untraceable⟩ := Classical.not_imp.mp unnoted
  simp only [Provisioner.provision, verify_compiled compiled, executed, traced,
    Bool.eq_false_iff.mpr untraceable]
  rfl

theorem provision_noted (compiled : Ddl.compile p.provisioner.limits p.options schema = .ok c)
    (executed : p.provisioner.execution.execute p.provisioner.engine log c = (after, .ok report))
    (notable : p.Notable w errand schema) (now : Instant) :
    p.provisioner.provision now log w.traces (.compiled c) schema (context w errand) =
      (after, (p.noted now w errand schema report).1,
        .ok ⟨report, (p.noted now w errand schema report).2⟩) := by
  simp only [Provisioner.provision, verify_compiled compiled, executed, noted]
  cases traced : p.provisioner.traced with
  | false => rfl
  | true =>
    have traceable : (context w errand).isTraceable schema = true := notable traced
    rw [traceable]
    rfl

/-- Nothing is stored or published when provisioning comes to no result. -/
theorem produce_of_error (compiled : Ddl.compile p.provisioner.limits p.options schema = .ok c)
    (provisioned : p.provisioner.provision now log w.traces (.compiled c) schema
      (context w errand) =
      (after, traces, .error e)) (validation : Validation) :
    p.produce now w log validation schema errand = ⟨w, after, .error e.problem⟩ := by
  unfold produce
  rw [compiled]
  dsimp only
  rw [← before?, ← context, provisioned]

private theorem produce_noted (compiled : Ddl.compile p.provisioner.limits p.options schema = .ok c)
    (executed : p.provisioner.execution.execute p.provisioner.engine log c = (after, .ok report))
    (notable : p.Notable w errand schema) (now : Instant) (validation : Validation) :
    p.produce now w log validation schema errand =
      if report.succeeded then
        p.complete now { w with traces := (p.noted now w errand schema report).1 }
          after validation c
          ⟨report, (p.noted now w errand schema report).2⟩ schema errand (before? w errand)
      else
        ⟨{ w with traces := (p.noted now w errand schema report).1 }, after,
          .ok (.unprovisioned validation c ⟨report, (p.noted now w errand schema report).2⟩)⟩ := by
  have provisioned := provision_noted compiled executed notable now
  unfold produce
  rw [compiled]
  dsimp only
  rw [← before?, ← context, provisioned]
  rfl

/-! ### Storing and publishing -/

private theorem complete_admitted
    (admitted : VersionStore.Admitted p.provisioner.limits w.versions
      (.schema schema) errand.scope schema)
    (now : Instant) (log : EngineLog) (validation : Validation) (c : Ddl.Compilation)
    (provision : Provision) (previous? : Option Schema) :
    p.complete now w log validation c provision schema errand previous? =
      ⟨{ w with
          registry := (w.registry.publish p.convert now schema previous?).1
          versions := w.versions.grown errand.scope (storedVersion now w errand schema) },
        log,
        .ok (.published validation c provision (storedVersion now w errand schema)
          (w.registry.publish p.convert now schema previous?).2)⟩ := by
  unfold complete
  dsimp only
  rw [admitted.create_eq]
  rfl

private theorem complete_hindered (passes : schema.passes p.provisioner.limits = true)
    (hindered : w.versions.Hindered errand.scope schema problem) (now : Instant) (log : EngineLog)
    (validation : Validation) (c : Ddl.Compilation) (provision : Provision)
    (previous? : Option Schema) :
    p.complete now w log validation c provision schema errand previous? =
      ⟨{ w with versions := ⟨w.versions.rows, w.versions.issued + 1⟩ }, log, .error problem⟩ := by
  have accepted : (validate (.schema schema) p.provisioner.limits).accepted? = some schema :=
    if_pos passes
  unfold complete
  dsimp only
  rw [hindered.create_eq accepted]

/-- What is accepted is published table by table, as its table names are all different. -/
theorem publish_accepted (converts : p.convert = .usual)
    (accepted : (validate candidate p.provisioner.limits).accepted? = some schema) (now : Instant)
    (registry : Registry) (previous? : Option Schema) :
    Registry.Published registry schema previous? (registry.publish p.convert now schema previous?).1
      (registry.publish p.convert now schema previous?).2 := by
  have sound := (schema.passes_iff _).mp (passes_of_accepted accepted)
  rw [converts]
  exact Registry.publish_usual now registry sound.tableNames previous?

/-! ### Runs -/

/-- A run that has begun produces what it can and gives the lock back. -/
private theorem Begun.run_eq
    (begun : Begun p now w log candidate errand schema taken c after run) :
    p.run now w log candidate errand =
      let result := p.produce now { w with locks := taken } log
        (validate candidate p.provisioner.limits) schema errand
      { result with
        workspace := { result.workspace with
          locks := p.leave result.workspace.locks errand.scope } } := by
  rw [Pipeline.run, begun.accepted]
  dsimp only
  rw [begun.entered]

private theorem stops_reported
    (begun : Begun p now w log candidate errand schema taken c after (.ok report)) :
    Stops p now w log candidate errand (p.run now w log candidate errand) := by
  have passes : schema.passes p.provisioner.limits = true := passes_of_accepted begun.accepted
  have accepted : (validate (.schema schema) p.provisioner.limits).accepted? = some schema :=
    if_pos passes
  rw [begun.run_eq]
  by_cases notable : p.Notable w errand schema
  · rw [produce_noted (w := { w with locks := taken }) begun.compiled begun.executed notable]
    cases succeeded : report.succeeded with
    | false =>
      have faulty : report.faults ≠ [] := List.isEmpty_eq_false_iff.mp succeeded
      exact .unprovisioned begun notable faulty
    | true =>
      have faultless : report.faults = [] := List.isEmpty_iff.mp succeeded
      let noted : Workspace := { w with
        locks := taken
        traces := (p.noted now { w with locks := taken } errand schema report).1 }
      rw [if_pos rfl]
      rcases VersionStore.admitted_or_hindered w.versions errand.scope accepted with
        admitted | ⟨problem, hindered⟩
      · rw [complete_admitted (w := noted) admitted]
        exact .published begun notable faultless admitted
      · rw [complete_hindered (w := noted) passes hindered]
        exact .unstored begun notable faultless hindered
  · have unnoted := provision_unnoted (w := { w with locks := taken }) begun.compiled begun.executed
      notable now
    rw [produce_of_error begun.compiled unnoted]
    exact .untraced begun notable

private theorem stops_begun (begun : Begun p now w log candidate errand schema taken c after run) :
    Stops p now w log candidate errand (p.run now w log candidate errand) := by
  cases run with
  | ok report => exact stops_reported begun
  | error fault =>
    have unconnected : p.provisioner.provision now log w.traces (.compiled c) schema
        (context { w with locks := taken } errand) =
          (after, w.traces, .error (.unconnected fault)) :=
      provision_unconnected begun.compiled begun.executed now
    rw [begun.run_eq, produce_of_error (w := { w with locks := taken }) begun.compiled unconnected]
    exact .unconnected begun

/-- Every run stops in one of these ways. -/
theorem run_stops (p : Pipeline) (now : Instant) (w : Workspace) (log : EngineLog)
    (candidate : Candidate) (errand : Errand) :
    Stops p now w log candidate errand (p.run now w log candidate errand) := by
  cases accepted : (validate candidate p.provisioner.limits).accepted? with
  | none =>
    rw [run, accepted]
    exact .rejected accepted
  | some schema =>
    cases entered : p.enter now w.locks errand.scope with
    | error e =>
      rw [run, accepted]
      dsimp only
      rw [entered]
      exact .locked accepted entered
    | ok taken =>
      have compiled : Ddl.compile p.provisioner.limits p.options schema =
          .ok (.ofSchema p.options schema) :=
        if_pos (passes_of_accepted accepted)
      exact stops_begun ⟨accepted, entered, compiled, rfl⟩

/-- What a run does to the versions can be asked of an archive. -/
theorem run_versions (p : Pipeline) (now : Instant) (w : Workspace) (log : EngineLog)
    (candidate : Candidate) (errand : Errand) :
    ∃ requests, (p.run now w log candidate errand).workspace.versions =
      ((Archive.mk w.versions none).run requests).versions := by
  have stops := p.run_stops now w log candidate errand
  let description := if errand.description = "" then errand.intent else errand.description
  generalize p.run now w log candidate errand = result at stops ⊢
  cases stops with
  | rejected refused => exact ⟨[], rfl⟩
  | locked accepted refused => exact ⟨[], rfl⟩
  | unconnected begun => exact ⟨[], rfl⟩
  | untraced begun unnoted => exact ⟨[], rfl⟩
  | unprovisioned begun notable faulty => exact ⟨[], rfl⟩
  | unstored begun notable faultless hindered =>
    refine ⟨[.create p.provisioner.limits now candidate errand.scope description], ?_⟩
    rw [Archive.run, List.foldl_cons, List.foldl_nil, Archive.serve,
      hindered.create_eq begun.accepted]
  | @published schema _ _ _ _ begun notable faultless admitted =>
    refine ⟨[.create p.provisioner.limits now (.schema schema) errand.scope description], ?_⟩
    rw [Archive.run, List.foldl_cons, List.foldl_nil, Archive.serve, admitted.create_eq]
    rfl

/-- A run publishes a schema that passes the rules as the next version of its scope, or it leaves
the registry and all versions as they were. -/
theorem run_publishes (converts : p.convert = .usual) (now : Instant) (w : Workspace)
    (log : EngineLog) (candidate : Candidate) (errand : Errand) :
    ((p.run now w log candidate errand).workspace.registry = w.registry ∧
      (p.run now w log candidate errand).workspace.versions.rows = w.versions.rows) ∨
    ∃ schema registration, schema.passes p.provisioner.limits = true ∧
      (p.run now w log candidate errand).workspace.versions =
        w.versions.grown errand.scope (storedVersion now w errand schema) ∧
      Registry.Published w.registry schema (before? w errand)
        (p.run now w log candidate errand).workspace.registry registration := by
  have stops := p.run_stops now w log candidate errand
  generalize p.run now w log candidate errand = result at stops ⊢
  cases stops with
  | rejected refused => exact .inl ⟨rfl, rfl⟩
  | locked accepted refused => exact .inl ⟨rfl, rfl⟩
  | unconnected begun => exact .inl ⟨rfl, rfl⟩
  | untraced begun unnoted => exact .inl ⟨rfl, rfl⟩
  | unprovisioned begun notable faulty => exact .inl ⟨rfl, rfl⟩
  | unstored begun notable faultless hindered => exact .inl ⟨rfl, rfl⟩
  | @published schema _ _ _ _ begun notable faultless admitted =>
    have published := publish_accepted converts begun.accepted now w.registry (before? w errand)
    exact .inr ⟨schema, _, passes_of_accepted begun.accepted, rfl, published⟩

end Pipeline

end Schemata
