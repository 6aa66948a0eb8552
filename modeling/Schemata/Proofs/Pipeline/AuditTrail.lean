import Mathlib.Data.List.Forall2
import Schemata.Proofs.History.Scopes
import Schemata.Proofs.Pipeline.Following
import Schemata.Proofs.Provisioning.Accounting

/-! The trail of traces. Every call of the executor that comes to a report is traced, in the order
of the calls, unless its schema cannot be written out; and each trace starts from the schema at
which the last success of its scope ended, as does the active version. -/

namespace Schemata

/-- A call of the executor: what it was asked for, with which schema and when, and what came of
it. -/
structure Attempt where
  now : Instant
  errand : Errand
  schema : Schema
  outcome : Except EngineFault ExecutionReport

/-- Whether a call leaves a trace: there is a report to trace, and the schema can be written out. -/
def Attempt.leavesTrace (a : Attempt) : Bool := a.outcome.isOk && a.schema.isWritable

/-- The call of the executor that a run makes, if it comes that far. -/
def Pipeline.attempt? (p : Pipeline) (now : Instant) (w : Workspace) (log : EngineLog)
    (candidate : Candidate) (errand : Errand) : Option Attempt :=
  match (validate candidate p.provisioner.limits).accepted? with
  | none => none
  | some schema =>
    match p.enter now w.locks errand.scope, Ddl.compile p.provisioner.limits p.options schema with
    | .ok _, .ok c =>
      some ⟨now, errand, schema, (p.provisioner.execution.execute p.provisioner.engine log c).2⟩
    | _, _ => none

/-- The run that a demand comes to; there is none for a version that is not stored. -/
def Demand.run? (store : VersionStore) : Demand → Option (Candidate × Errand)
  | .run candidate errand => some (candidate, errand)
  | .restore id user? description? => (store.version? id).map fun version =>
    (.schema version.snapshot, Pipeline.restoration version user? description?)

/-- A demand for a project, if it is for one, that has a name. -/
def Demand.IsNamed : Demand → Prop
  | .run _ errand => errand.scope.project? ≠ some ""
  | .restore .. => True

/-- A demand put to a pipeline that traces what it runs, with the calls of the engine and the lock
table as they are found then. -/
structure Job where
  pipeline : Pipeline
  traced : pipeline.provisioner.traced = true
  now : Instant
  log : EngineLog
  locks : LockTable
  demand : Demand

namespace Job

/-- What the pipeline gives back. -/
def result (job : Job) (w : Workspace) : RunResult :=
  let found : Workspace := { w with locks := job.locks }
  match job.demand with
  | .run candidate errand => job.pipeline.run job.now found job.log candidate errand
  | .restore id user? description? =>
    job.pipeline.restore job.now found job.log id user? description?

def attempt? (job : Job) (w : Workspace) : Option Attempt :=
  (job.demand.run? w.versions).bind fun (candidate, errand) =>
    job.pipeline.attempt? job.now { w with locks := job.locks } job.log candidate errand

end Job

namespace Workspace

def work (w : Workspace) (job : Job) : Workspace := (job.result w).workspace

def workAll (w : Workspace) (jobs : List Job) : Workspace := jobs.foldl work w

/-- The calls of the executor that jobs come to, one after the other. -/
def attempts (w : Workspace) : List Job → List Attempt
  | [] => []
  | job :: rest => (job.attempt? w).toList ++ (w.work job).attempts rest

end Workspace

/-! ### Traces -/

/-- A trace of a run without faults. -/
def Trace.succeeded (t : Trace) : Bool := t.decision.details.member "errors" = .arr []

/-- A trace tells of a call for whom and why it was made, with which schema and when, and whether it
succeeded. -/
structure Attempt.TracedBy (a : Attempt) (t : Trace) : Prop where
  scope : t.decision.scope = a.errand.scope
  intent : t.decision.intent = a.errand.intent
  precedent : t.decision.precedent? = a.errand.precedent?
  version : t.decision.version = a.schema.version
  after : t.decision.after = a.schema.payload
  succeeded : t.succeeded = true ↔ ∃ report, a.outcome = .ok report ∧ report.faults = []
  time : t.time = a.now

/-- Where the last success of a scope ended. -/
def latestAfter? (traces : List Trace) (scope : Scope) : Option Json :=
  ((traces.filter fun t => t.decision.scope = scope ∧ t.succeeded = true).getLast?).map
    (·.decision.after)

/-- Every trace starts where the last success of its scope before it ended, or from nothing. -/
def Chained (traces : List Trace) : Prop :=
  ∀ earlier t later, traces = earlier ++ t :: later →
    t.decision.before = (latestAfter? earlier t.decision.scope).getD .null

private theorem latestAfter?_concat (traces : List Trace) (t : Trace) (scope : Scope) :
    latestAfter? (traces ++ [t]) scope =
      if t.decision.scope = scope ∧ t.succeeded = true then some t.decision.after
      else latestAfter? traces scope := by
  unfold latestAfter?
  rw [List.filter_append]
  split
  · rename_i latest
    simp [latest]
  · rename_i other
    simp [other]

theorem Chained.concat (chained : Chained traces)
    (starts : t.decision.before = (latestAfter? traces t.decision.scope).getD .null) :
    Chained (traces ++ [t]) := by
  intro earlier other later split
  rcases List.eq_nil_or_concat later with rfl | ⟨rest, last, rfl⟩
  · obtain ⟨rfl, same⟩ := List.append_inj' split rfl
    obtain rfl := List.singleton_inj.mp same
    exact starts
  · have front : traces ++ [t] = (earlier ++ other :: rest) ++ [last] := by simpa using split
    exact chained earlier other rest (List.append_inj' front rfl).1

/-- Without projects of the empty name no version is in the way of another scope. -/
theorem VersionStore.isBlocked_eq_false {store : VersionStore} {scope : Scope}
    (named : ∀ row ∈ store.rows, row.scope.project? ≠ some "") (own : scope.project? ≠ some "") :
    store.isBlocked scope = false := by
  refine List.any_eq_false.mpr fun row member blocking => ?_
  simp only [Bool.and_eq_true, bne_iff_ne, decide_eq_true_eq] at blocking
  obtain ⟨⟨-, differs⟩, clash⟩ := blocking
  have twin := Scope.twin?_eq_some_iff.mpr ⟨differs, clash⟩
  unfold Scope.twin? at twin
  split at twin
  · exact named row member (Option.some.inj twin ▸ rfl)
  · rename_i project given
    rw [given] at own
    rw [if_neg fun empty => own (congrArg some empty)] at twin
    cases twin

namespace Pipeline

variable {p : Pipeline} {now : Instant} {w : Workspace} {log after : EngineLog}
  {candidate : Candidate} {errand : Errand} {schema : Schema} {c : Ddl.Compilation}
  {taken : LockTable} {outcome : Except EngineFault ExecutionReport}

theorem Begun.attempt?_eq
    (begun : Begun p now w log candidate errand schema taken c after outcome) :
    p.attempt? now w log candidate errand = some ⟨now, errand, schema, outcome⟩ := by
  simp only [attempt?, begun.accepted, begun.entered, begun.compiled, begun.executed]

theorem Begun.log_ne (begun : Begun p now w log candidate errand schema taken c after outcome) :
    after ≠ log := by
  have passes : schema.passes p.provisioner.limits = true := passes_of_accepted begun.accepted
  have compiled : Ddl.compile p.provisioner.limits p.options schema =
      .ok (.ofSchema p.options schema) :=
    if_pos passes
  obtain rfl := Except.ok.inj (begun.compiled.symm.trans compiled)
  have account := execute_accounted ((schema.passes_iff _).mp passes) p.provisioner.execution
    p.provisioner.engine log p.options
  rw [begun.executed] at account
  exact account.log_ne

/-- A run calls the executor exactly if the engine gets to know of it. -/
theorem attempt?_isSome_iff (p : Pipeline) (now : Instant) (w : Workspace) (log : EngineLog)
    (candidate : Candidate) (errand : Errand) :
    (p.attempt? now w log candidate errand).isSome = true ↔
      (p.run now w log candidate errand).log ≠ log := by
  have stops := p.run_stops now w log candidate errand
  generalize p.run now w log candidate errand = result at stops ⊢
  cases stops with
  | rejected refused => simp [attempt?, refused]
  | locked accepted refused => simp [attempt?, accepted, refused]
  | unconnected begun | untraced begun _ | unprovisioned begun _ _ | unstored begun _ _ _
  | published begun _ _ _ =>
    simp [begun.attempt?_eq, begun.log_ne]

theorem tracedRun_tracedBy (now : Instant) (w : Workspace) (errand : Errand) (schema : Schema)
    (report : ExecutionReport) :
    Attempt.TracedBy ⟨now, errand, schema, .ok report⟩
      (tracedRun now w errand schema report).2 where
  scope := rfl
  intent := rfl
  precedent := rfl
  version := rfl
  after := rfl
  succeeded := by
    simp [Trace.succeeded, tracedRun, TraceLog.append, ExecutionReport.decision,
      Json.member, Json.ofStrings, List.lookup_cons]
  time := rfl

end Pipeline

/-- A job comes to a run, or to nothing for a version that is not stored. -/
theorem Job.result_cases (job : Job) (w : Workspace) :
    (∃ failure, job.demand.run? w.versions = none ∧
      job.result w = ⟨{ w with locks := job.locks }, job.log, .error failure⟩) ∨
    ∃ candidate errand, job.demand.run? w.versions = some (candidate, errand) ∧
      job.result w =
        job.pipeline.run job.now { w with locks := job.locks } job.log candidate errand := by
  cases asked : job.demand with
  | run candidate errand => exact .inr ⟨candidate, errand, rfl, by simp [result, asked]⟩
  | restore id user? description? =>
    cases stored : w.versions.version? id with
    | none =>
      exact .inl ⟨.failure (.versionNotFound id), by simp [Demand.run?, stored],
        by simp [result, asked, Pipeline.restore, VersionStore.version, stored]⟩
    | some version =>
      exact .inr ⟨.schema version.snapshot, Pipeline.restoration version user? description?,
        by simp [Demand.run?, stored],
        by simp [result, asked, Pipeline.restore, VersionStore.version, stored]⟩

theorem Job.attempt?_isSome_iff (job : Job) (w : Workspace) :
    (job.attempt? w).isSome = true ↔ (job.result w).log ≠ job.log := by
  rcases job.result_cases w with ⟨failure, none, result⟩ | ⟨candidate, errand, asked, result⟩
  · simp [attempt?, none, result]
  · rw [attempt?, asked, result]
    exact job.pipeline.attempt?_isSome_iff job.now _ job.log candidate errand

theorem Demand.project?_of_run? {demand : Demand} {store : VersionStore}
    (stored : ∀ row ∈ store.rows, row.scope.project? ≠ some "") (named : demand.IsNamed)
    (asked : demand.run? store = some (candidate, errand)) : errand.scope.project? ≠ some "" := by
  cases demand with
  | run candidate errand =>
    obtain ⟨rfl, rfl⟩ := Prod.mk.inj (Option.some.inj asked)
    exact named
  | restore id user? description? =>
    obtain ⟨version, found, made⟩ := Option.map_eq_some_iff.mp asked
    obtain ⟨rfl, rfl⟩ := Prod.mk.inj made
    exact stored version (List.mem_of_find?_eq_some found)

namespace Workspace

/-- What every job keeps of a workspace that came out of some calls of the executor. -/
structure Audited (w : Workspace) (attempts : List Attempt) : Prop where
  named : ∀ row ∈ w.versions.rows, row.scope.project? ≠ some ""
  written : w.versions.Written
  matched : List.Forall₂ Attempt.TracedBy (attempts.filter (·.leavesTrace)) w.traces.rows
  chained : Chained w.traces.rows
  live : ∀ scope, latestAfter? w.traces.rows scope =
    (w.versions.active? scope).map (·.snapshot.payload)

namespace Audited

variable {w next : Workspace} {attempts : List Attempt} {p : Pipeline} {errand : Errand}

theorem congr (audited : w.Audited attempts) (versions : next.versions = w.versions)
    (traces : next.traces = w.traces) : next.Audited attempts := by
  obtain ⟨named, written, matched, chained, live⟩ := audited
  rw [← versions] at named written live
  rw [← traces] at matched chained live
  exact ⟨named, written, matched, chained, live⟩

private theorem skip (audited : w.Audited attempts) (versions : next.versions = w.versions)
    (traces : next.traces = w.traces) (untraced : attempt.leavesTrace = false) :
    next.Audited (attempts ++ [attempt]) := by
  obtain ⟨named, written, matched, chained, live⟩ := audited.congr versions traces
  refine ⟨named, written, ?_, chained, live⟩
  simpa [List.filter_append, untraced] using matched

private theorem before_eq (audited : w.Audited attempts) (now : Instant) (schema : Schema)
    (report : ExecutionReport) :
    (Pipeline.tracedRun now w errand schema report).2.decision.before =
      (latestAfter? w.traces.rows errand.scope).getD .null := by
  have before : (Pipeline.tracedRun now w errand schema report).2.decision.before =
      Json.ofOption Schema.payload (Pipeline.before? w errand) := rfl
  rw [before, audited.live, Pipeline.before?]
  cases w.versions.active? errand.scope <;> rfl

/-- A call that is traced adds its trace, and the active versions have to agree. -/
theorem note (audited : w.Audited attempts) (now : Instant) {schema : Schema}
    {report : ExecutionReport} (writable : schema.isWritable = true)
    (traces : next.traces = (Pipeline.tracedRun now w errand schema report).1)
    (named : ∀ row ∈ next.versions.rows, row.scope.project? ≠ some "")
    (written : next.versions.Written) (live : ∀ scope,
      (next.versions.active? scope).map (·.snapshot.payload) =
      if errand.scope = scope ∧ report.faults = [] then some schema.payload
      else (w.versions.active? scope).map (·.snapshot.payload)) :
    next.Audited (attempts ++ [⟨now, errand, schema, .ok report⟩]) := by
  have rows : next.traces.rows = w.traces.rows ++
      [(Pipeline.tracedRun now w errand schema report).2] :=
    traces ▸ rfl
  have tracedBy := Pipeline.tracedRun_tracedBy now w errand schema report
  refine ⟨named, written, ?_, ?_, fun scope => ?_⟩
  · rw [rows, List.filter_append]
    have leaves : Attempt.leavesTrace ⟨now, errand, schema, .ok report⟩ = true := writable
    exact List.rel_append audited.matched (by simpa [leaves] using tracedBy)
  · rw [rows]
    exact audited.chained.concat (audited.before_eq now schema report)
  · rw [rows, latestAfter?_concat, live, audited.live]
    simp [tracedBy.scope, tracedBy.after, tracedBy.succeeded]

/-- A run keeps the trail, wherever it ends. -/
theorem run (audited : w.Audited attempts) (traced : p.provisioner.traced = true)
    (own : errand.scope.project? ≠ some "") (now : Instant) (log : EngineLog)
    (candidate : Candidate) :
    (p.run now w log candidate errand).workspace.Audited
      (attempts ++ (p.attempt? now w log candidate errand).toList) := by
  have stops := p.run_stops now w log candidate errand
  have noted {schema : Schema} : p.Notable w errand schema → schema.isWritable = true :=
    (Pipeline.notable_iff traced audited.written).mp
  generalize p.run now w log candidate errand = result at stops ⊢
  cases stops with
  | rejected refused => simpa [Pipeline.attempt?, refused] using audited
  | locked accepted refused => simpa [Pipeline.attempt?, accepted, refused] using audited
  | unconnected begun =>
    rw [begun.attempt?_eq]
    exact audited.skip rfl rfl rfl
  | untraced begun unnoted =>
    rw [Pipeline.notable_iff traced audited.written, Bool.not_eq_true] at unnoted
    rw [begun.attempt?_eq]
    exact audited.skip rfl rfl unnoted
  | unprovisioned begun notable faulty =>
    rw [begun.attempt?_eq, Pipeline.noted_eq traced]
    exact audited.note now (noted notable) rfl audited.named audited.written (by simp [faulty])
  | unstored begun notable _ hindered =>
    -- The trace has shown that the schema can be written out, and no scope is in the way of
    -- another.
    cases hindered with
    | unwritable buried => exact absurd (noted notable) (by simp [buried])
    | blocked _ taken =>
      rw [VersionStore.isBlocked_eq_false audited.named own] at taken
      cases taken
  | @published schema _ _ _ report begun notable faultless _ =>
    rw [begun.attempt?_eq, Pipeline.noted_eq traced]
    refine audited.note now (noted notable) rfl (fun row member => ?_)
      (audited.written.grow (noted notable)) fun scope => ?_
    · rcases List.mem_append.mp member with old | new
      · obtain ⟨row, inside, rfl⟩ := List.mem_map.mp old
        split <;> exact audited.named row inside
      · exact List.mem_singleton.mp new ▸ own
    · by_cases here : errand.scope = scope
      · subst here
        simp [VersionStore.active?_grown, Pipeline.storedVersion, VersionStore.next, faultless,
          Schema.payload_settled]
      · have stored : (Pipeline.storedVersion now w errand schema).scope = errand.scope := rfl
        have other := w.versions.active?_grown_other stored (Ne.symm here)
        simp only [other, here, false_and, if_false]

/-- So does every job: what is restored belongs to a scope that is in the store already. -/
theorem work (audited : w.Audited attempts) (job : Job) (named : job.demand.IsNamed) :
    (w.work job).Audited (attempts ++ (job.attempt? w).toList) := by
  have found : Audited { w with locks := job.locks } attempts := audited.congr rfl rfl
  rcases job.result_cases w with ⟨failure, none, result⟩ | ⟨candidate, errand, asked, result⟩
  · rw [Workspace.work, result, Job.attempt?, none]
    simpa using found
  · rw [Workspace.work, result, Job.attempt?, asked]
    exact found.run job.traced (Demand.project?_of_run? audited.named named asked) job.now
      job.log candidate

private theorem workAll (audited : w.Audited attempts) (jobs : List Job)
    (named : ∀ job ∈ jobs, job.demand.IsNamed) :
    (w.workAll jobs).Audited (attempts ++ w.attempts jobs) := by
  induction jobs generalizing w attempts with
  | nil => simpa [Workspace.workAll, Workspace.attempts] using audited
  | cons job rest ih =>
    have first := audited.work job (named job (List.mem_cons_self ..))
    have others := ih first fun later member => named later (List.mem_cons_of_mem _ member)
    rwa [List.append_assoc] at others

end Audited

private theorem empty_audited (registry : Registry) (locks : LockTable) :
    Audited ⟨registry, .empty, .empty, locks⟩ [] where
  named row member := by cases member
  written := VersionStore.empty_written
  matched := .nil
  chained earlier t later split := by simp [TraceLog.empty] at split
  live scope := rfl

/-- From an empty store and an empty trace log on, after any runs and restorations in any scopes,
whatever is asked for, refused by a database or locked by others: the traces of a scope are those of
its calls of the executor, one for each in their order, but for calls that got no connection or
whose schemas cannot be written out; every trace starts where the last success of its scope before
it ended; and where the last one ended is the active version. -/
theorem workAll_trail (registry : Registry) (locks : LockTable) (jobs : List Job)
    (named : ∀ job ∈ jobs, job.demand.IsNamed) :
    let start : Workspace := ⟨registry, .empty, .empty, locks⟩
    let traces := (start.workAll jobs).traces.rows
    (∀ (job : Job) w, (job.attempt? w).isSome = true ↔ (job.result w).log ≠ job.log) ∧
    (∀ scope, List.Forall₂ Attempt.TracedBy
      ((start.attempts jobs).filter fun a => a.leavesTrace = true ∧ a.errand.scope = scope)
      (traces.filter fun t => t.decision.scope = scope)) ∧
    Chained traces ∧
    ∀ scope, latestAfter? traces scope =
      ((start.workAll jobs).versions.active? scope).map (·.snapshot.payload) := by
  intro start traces
  have audited := (empty_audited registry locks).workAll jobs named
  refine ⟨Job.attempt?_isSome_iff, fun scope => ?_, audited.chained, audited.live⟩
  have own : ∀ ⦃a t⦄, Attempt.TracedBy a t →
      (decide (a.errand.scope = scope) = true ↔ decide (t.decision.scope = scope) = true) := by
    intro a t tracedBy
    rw [tracedBy.scope]
  have matched := List.rel_filter own audited.matched
  rw [List.nil_append, List.filter_filter] at matched
  simpa [and_comm] using matched

/-- A demand of Ada's, put to the standard pipeline in front of some database while nobody holds a
lock. -/
def crmJob (second : Int) (engine : Engine) (demand : Demand) : Job where
  pipeline := { Pipeline.standard with provisioner := ⟨.standard, .atomic, engine, true⟩ }
  traced := rfl
  now := .ofSeconds second
  log := []
  locks := []
  demand := demand

set_option maxRecDepth 100000 in
/-- Deals are published, companies without them are refused by the database, and deals are restored:
the last trace starts where the first one ended. -/
theorem deals_restored_trail :
    let refusing : Engine := fun _ call =>
      if call = .connect then none else some ⟨"OperationalError", "disk full", none⟩
    let jobs := [
      crmJob 1 .willing (.run (.schema .deals) Pipeline.launch),
      crmJob 2 refusing (.run (.schema .companies) Pipeline.launch),
      crmJob 3 .willing (.restore "v1" none none)]
    let traces := (workAll ⟨[], .empty, .empty, []⟩ jobs).traces.rows
    (∀ job ∈ jobs, job.demand.IsNamed) ∧ Chained traces ∧
      traces.map Trace.succeeded = [true, false, true] ∧
      traces.map (·.decision.before) = [.null, Schema.deals.payload, Schema.deals.payload] := by
  intro refusing jobs traces
  have named : ∀ job ∈ jobs, job.demand.IsNamed := by
    simp [jobs, crmJob, Demand.IsNamed, Pipeline.launch]
  obtain ⟨-, -, chained, -⟩ := workAll_trail [] [] jobs named
  have steps : traces.map Trace.succeeded = [true, false, true] ∧
      traces.map (·.decision.before) = [.null, Schema.deals.payload, Schema.deals.payload] := by
    decide +kernel
  exact ⟨named, chained, steps⟩

set_option maxRecDepth 100000 in
/-- The trail may have gaps: a schema that cannot be written out is provisioned, and no trace tells
of it. -/
theorem not_always_gapless : ¬ ∀ (jobs : List Job) scope, (∀ job ∈ jobs, job.demand.IsNamed) →
    (∀ job ∈ jobs, job.pipeline.provisioner.engine.Connects) →
    List.Forall₂ Attempt.TracedBy
      ((attempts ⟨[], .empty, .empty, []⟩ jobs).filter fun a => a.errand.scope = scope)
      ((workAll ⟨[], .empty, .empty, []⟩ jobs).traces.rows.filter fun t => t.decision.scope =
        scope) := by
  intro gapless
  let jobs : List Job := [crmJob 1 .willing (.run (.schema .buried) Pipeline.launch)]
  have named : ∀ job ∈ jobs, job.demand.IsNamed := by
    simp [jobs, crmJob, Demand.IsNamed, Pipeline.launch]
  have connects : ∀ job ∈ jobs, job.pipeline.provisioner.engine.Connects := by
    simp [jobs, crmJob, Engine.Connects, Engine.willing]
  have counted := (gapless jobs Pipeline.launch.scope named connects).length_eq
  have attempted : ((attempts ⟨[], .empty, .empty, []⟩ jobs).filter fun a =>
      a.errand.scope = Pipeline.launch.scope).length = 1 := by decide +kernel
  have untraced : ((workAll ⟨[], .empty, .empty, []⟩ jobs).traces.rows.filter fun t =>
      t.decision.scope = Pipeline.launch.scope).length = 0 := by decide +kernel
  rw [attempted, untraced] at counted
  cases counted

end Workspace

end Schemata
