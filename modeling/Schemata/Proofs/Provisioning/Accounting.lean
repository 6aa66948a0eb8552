import Schemata.Provisioning.Provision
import Schemata.Proofs.Ddl.Orders
import Schemata.Proofs.Provisioning.Transactions

/-! The books of a run. What a report names as made, failed and executed is what the engine took and
refused, table by table, and every table of the schema stands in it once. -/

namespace Schemata

open Ddl

/-- Tables are tried in order, each with all its statements and whatever came of the ones before. -/
inductive Engine.TriesTables (engine : Engine) (c : Compilation) :
    EngineLog → Keyed Trial → Prop where
  | nil : TriesTables engine c log []
  | cons (known : c.forTable? name = some statements)
      (first : engine.Tries log (statements.map Statement.sql) trial)
      (later : TriesTables engine c (log ++ trial.calls) rest) :
      TriesTables engine c log ((name, trial) :: rest)

/-! ### Reports of trials -/

/-- The tables whose transaction was committed, in the order of the trials. -/
def Trial.made (trials : Keyed Trial) : List String := Keyed.keys (trials.filter (·.2.passed))

/-- The faults of the other tables, in the same order. -/
def Trial.faults (trials : Keyed Trial) : List ProvisioningFault :=
  trials.filterMap fun entry => entry.2.fault?.map fun fault => ⟨some entry.1, fault⟩

theorem Trial.made_append (first second : Keyed Trial) :
    Trial.made (first ++ second) = Trial.made first ++ Trial.made second := by
  simp [Trial.made, Keyed.keys]

theorem Trial.faults_append (first second : Keyed Trial) :
    Trial.faults (first ++ second) = Trial.faults first ++ Trial.faults second :=
  List.filterMap_append

/-- What a run reports, and the log it leaves. Only a script needs a connection of its own
beforehand, and there is no report when that is refused. -/
inductive Accounted (engine : Engine) (log : EngineLog) (c : Compilation) :
    Execution → EngineLog × Except EngineFault ExecutionReport → Prop where
  | unconnected (refused : engine log .connect = some fault) :
      Accounted engine log c .atomic (log ++ [.connect], .error fault)
  | whole (connected : engine log .connect = none)
      (taken : engine (log ++ [.connect]) (.run c.text) = none) :
      Accounted engine log c .atomic
        (log ++ [.connect, .run c.text, .close], .ok ⟨.atomic, c.tableNames, [], [c.text]⟩)
  | nothing (connected : engine log .connect = none)
      (refused : engine (log ++ [.connect]) (.run c.text) = some fault) :
      Accounted engine log c .atomic
        (log ++ [.connect, .run c.text, .run "ROLLBACK", .close],
          .ok ⟨.atomic, [], c.tableNames.map fun name => ⟨some name, fault⟩, []⟩)
  | tables (order : trials.keys = c.dependencyOrder)
      (opening : engine.Tries log (c.shared.map Statement.sql) shared)
      (tried : engine.TriesTables c (log ++ shared.calls) trials) :
      Accounted engine log c .perEntity
        (log ++ shared.calls ++ trials.flatMap (·.2.calls),
          .ok {
            execution := .perEntity
            created := Trial.made trials
            faults := (shared.fault?.map fun fault => ⟨none, fault⟩).toList ++ Trial.faults trials
            executed :=
              ((if shared.passed then c.shared else []) ++ c.blocks (Trial.made trials)).map
              Statement.sql })

/-- A report that names every table of a schema once, as made or as failed. It is a success when all
of them were made and nothing else failed; of a whole script nothing was executed otherwise. -/
structure ExecutionReport.Covers (r : ExecutionReport) (schema : Schema) : Prop where
  each : (r.created ++ r.faults.filterMap (·.table?)).Perm schema.tableNames
  once : (r.created ++ r.faults.filterMap (·.table?)).Nodup
  success : r.succeeded = true ↔
    r.created.Perm schema.tableNames ∧ ∀ f ∈ r.faults, f.table?.isSome = true
  wholly : r.execution = .atomic → (r.succeeded = true ↔ r.executed ≠ [])

section Runs

variable (engine : Engine) (c : Compilation)

private theorem executeAtomic_accounted (log : EngineLog) :
    Accounted engine log c .atomic (executeAtomic engine log c) := by
  simp only [executeAtomic, Engine.script, Engine.call]
  cases connected : engine log .connect with
  | some fault => exact .unconnected connected
  | none =>
    cases verdict : engine (log ++ [.connect]) (.run c.text) with
    | none => simpa [verdict] using Accounted.whole connected verdict
    | some fault => simpa [verdict] using Accounted.nothing connected verdict

private theorem executeShared_tries (log : EngineLog) :
    ∃ shared, engine.Tries log (c.shared.map Statement.sql) shared ∧
      executeShared engine log c = (log ++ shared.calls,
        { execution := .perEntity
          created := []
          faults := (shared.fault?.map fun fault => ⟨none, fault⟩).toList
          executed := (if shared.passed then c.shared else []).map Statement.sql }) := by
  obtain ⟨⟨calls, fault?⟩, tried, made⟩ := engine.transact_tries log (c.shared.map Statement.sql)
  refine ⟨_, tried, ?_⟩
  unfold executeShared
  cases fault? <;> simp [made, Trial.passed]

/-- What the trial of one table adds to a report. -/
theorem executeTable_tries (log : EngineLog) (report : ExecutionReport)
    (known : c.forTable? name = some statements) :
    ∃ trial, engine.Tries log (statements.map Statement.sql) trial ∧
      executeTable engine c (log, report) name = (log ++ trial.calls, { report with
        created := report.created ++ Trial.made [(name, trial)]
        faults := report.faults ++ Trial.faults [(name, trial)]
        executed := report.executed ++ (c.blocks (Trial.made [(name, trial)])).map
          Statement.sql }) := by
  obtain ⟨⟨calls, fault?⟩, tried, made⟩ := engine.transact_tries log (statements.map Statement.sql)
  refine ⟨_, tried, ?_⟩
  unfold executeTable
  cases fault? <;>
    simp [made, known, Trial.made, Trial.faults, Trial.passed, Keyed.keys, Compilation.blocks]

/-- The trials of tables one after the other, whatever the report says so far. -/
theorem foldl_executeTable_tries (known : ∀ name ∈ names, (c.forTable? name).isSome = true)
    (log : EngineLog) (report : ExecutionReport) :
    ∃ trials : Keyed Trial, trials.keys = names ∧ engine.TriesTables c log trials ∧
      names.foldl (executeTable engine c) (log, report) =
        (log ++ trials.flatMap (·.2.calls), { report with
          created := report.created ++ Trial.made trials
          faults := report.faults ++ Trial.faults trials
          executed := report.executed ++ (c.blocks (Trial.made trials)).map Statement.sql }) := by
  induction names generalizing log report with
  | nil => exact ⟨[], rfl, .nil, by simp [Trial.made, Trial.faults, Keyed.keys, Compilation.blocks]⟩
  | cons name rest ih =>
    obtain ⟨here, others⟩ := List.forall_mem_cons.mp known
    obtain ⟨statements, found⟩ := Option.isSome_iff_exists.mp here
    obtain ⟨trial, first, made⟩ := executeTable_tries engine c log report found
    obtain ⟨trials, order, later, ran⟩ := ih others (log ++ trial.calls) _
    refine ⟨(name, trial) :: trials, ?_, .cons found first later, ?_⟩
    · rw [Keyed.keys, List.map_cons, ← order, Keyed.keys]
    · have one : (name, trial) :: trials = [(name, trial)] ++ trials := rfl
      rw [List.foldl_cons, made, ran, one, Trial.made_append, Trial.faults_append]
      simp [Compilation.blocks]

private theorem executePerEntity_accounted
    (known : ∀ name ∈ c.dependencyOrder, (c.forTable? name).isSome = true) (log : EngineLog) :
    Accounted engine log c .perEntity ((executePerEntity engine log c).map id .ok) := by
  obtain ⟨shared, opening, begun⟩ := executeShared_tries engine c log
  obtain ⟨trials, order, tried, ran⟩ :=
    foldl_executeTable_tries engine c known (log ++ shared.calls) _
  have account := Accounted.tables order opening tried
  rw [executePerEntity, begun, ran]
  simpa using account

end Runs

/-! ### Every table once -/

theorem Trial.table?_faults (trials : Keyed Trial) :
    (Trial.faults trials).filterMap (·.table?) =
      Keyed.keys (trials.filter fun entry => !entry.2.passed) := by
  induction trials with
  | nil => rfl
  | cons entry rest ih =>
    obtain ⟨name, calls, fault?⟩ := entry
    cases fault? <;> simp_all [Trial.faults, Keyed.keys, Trial.passed]

theorem Trial.made_append_perm (trials : Keyed Trial) :
    (Trial.made trials ++ (Trial.faults trials).filterMap (·.table?)).Perm trials.keys := by
  rw [Trial.table?_faults, Trial.made, Keyed.keys, Keyed.keys, ← List.map_append]
  exact (List.filter_append_perm (·.2.passed) trials).map _

/-- A report without faults names all tables as made, and one that does so has only faults that name
no table. -/
theorem ExecutionReport.succeeded_iff {r : ExecutionReport} {schema : Schema}
    (each : (r.created ++ r.faults.filterMap (·.table?)).Perm schema.tableNames) :
    r.succeeded = true ↔ r.created.Perm schema.tableNames ∧
      ∀ f ∈ r.faults, f.table?.isSome = true := by
  rw [ExecutionReport.succeeded, List.isEmpty_iff]
  constructor
  · intro none
    simpa [none] using each
  · rintro ⟨made, tabled⟩
    have lengths := each.length_eq.trans made.length_eq.symm
    have unnamed : r.faults.filterMap (·.table?) = [] := by
      rw [List.length_append] at lengths
      exact List.length_eq_zero_iff.mp (by omega)
    refine List.eq_nil_iff_forall_not_mem.mpr fun fault member => ?_
    have missing := List.filterMap_eq_nil_iff.mp unnamed fault member
    simpa [missing] using tabled fault member

namespace Accounted

variable {schema : Schema} {options : Options}

private theorem each (account : Accounted engine log (.ofSchema options schema) execution
    (log', .ok report)) (distinct : schema.tableNames.Nodup) :
    (report.created ++ report.faults.filterMap (·.table?)).Perm schema.tableNames := by
  have names := Compilation.tableNames_ofSchema options schema
  cases account with
  | whole => simp [names]
  | nothing => simp [names, List.filterMap_map]
  | @tables shared trials order opening tried =>
    obtain ⟨tables, perm, named⟩ := exists_tables_of_dependencyOrder options distinct
    have all : trials.keys.Perm schema.tableNames := by
      rw [order, named]
      exact perm.map _
    have unnamed :
        ((shared.fault?.map fun fault => (⟨none, fault⟩ : ProvisioningFault)).toList).filterMap
        (·.table?) = [] := by
      cases shared.fault? <;> rfl
    simpa [unnamed] using (Trial.made_append_perm trials).trans all

private theorem covers (account : Accounted engine log (.ofSchema options schema) execution
    (log', .ok report)) (sound : schema.Sound limits) : report.Covers schema where
  each := account.each sound.tableNames
  once := (account.each sound.tableNames).nodup_iff.mpr sound.tableNames
  success := ExecutionReport.succeeded_iff (account.each sound.tableNames)
  wholly atomic := by
    have tables : schema.tables ≠ [] := List.length_pos_iff.mp sound.tableCount.1
    cases account with
    | whole => simp [ExecutionReport.succeeded]
    | nothing =>
      simpa [ExecutionReport.succeeded, Compilation.tableNames, Compilation.ofSchema] using tables
    | tables => simp at atomic

theorem log_ne (account : Accounted engine log c execution run) : run.1 ≠ log := by
  cases account with
  | unconnected | whole | nothing => simp
  | tables order opening tried => cases opening <;> simp

end Accounted

theorem execute_accounted (sound : schema.Sound limits) (execution : Execution) (engine : Engine)
    (log : EngineLog) (options : Options) :
    Accounted engine log (.ofSchema options schema) execution
      (execution.execute engine log (.ofSchema options schema)) := by
  cases execution with
  | atomic => exact executeAtomic_accounted engine _ log
  | perEntity =>
    refine executePerEntity_accounted engine _ (fun name member => ?_) log
    obtain ⟨tables, perm, named⟩ := exists_tables_of_dependencyOrder options sound.tableNames
    rw [named] at member
    obtain ⟨table, inside, rfl⟩ := List.mem_map.mp member
    rw [forTable?_ofSchema options sound.tableNames (perm.mem_iff.mp inside), Option.isSome_some]

/-- Only a refused connection leaves no report. -/
theorem execute_reports (connects : engine.Connects) (execution : Execution) (log : EngineLog)
    (c : Compilation) : ∃ log' report, execution.execute engine log c = (log', .ok report) := by
  cases execution with
  | perEntity => exact ⟨_, _, rfl⟩
  | atomic =>
    simp only [Execution.execute, executeAtomic, Engine.call, connects log]
    split <;> exact ⟨_, _, rfl⟩

/-- What is provisioned is what the compiler makes of the schema; the result has the report of the
run unless the run cannot be traced. -/
theorem Provisioner.provision_compiled (p : Provisioner) (passes : schema.passes p.limits = true)
    (options : Options)
    (executed : p.execution.execute p.engine log (.ofSchema options schema) = (log', .ok report))
    (now : Instant) (traces : TraceLog) (context : ProvisioningContext) :
    let outcome := p.provision now log traces (.compiled (.ofSchema options schema)) schema context
    outcome.1 = log' ∧ (p.traced = false ∨ context.isTraceable schema = true →
      ∃ traceId?, outcome.2.2 = .ok ⟨report, traceId?⟩) := by
  have same : (Compilation.ofSchema options schema).options = options := rfl
  have verified : verify p.limits (.compiled (.ofSchema options schema)) schema =
      .ok (.ofSchema options schema) := by
    simp [verify, compile, passes, same, Except.mapError, bind, Except.bind, pure, Except.pure]
  simp only [Provisioner.provision, verified, executed]
  cases traced : p.traced with
  | false => simp
  | true =>
    cases traceable : context.isTraceable schema <;> simp

/-- Whatever an engine that can be connected to refuses of a run, the report accounts for the calls
that it got, and names every table of the schema once. A provisioner hands this report on. -/
theorem Provisioner.report_accounts (p : Provisioner) (connects : p.engine.Connects)
    (options : Options) (schema : Schema) (passed : (validate (.schema schema) p.limits).passed =
      true) (log : EngineLog) :
    ∃ c, compile p.limits options schema = .ok c ∧
      ∃ log' report, p.execution.execute p.engine log c = (log', .ok report) ∧
        Accounted p.engine log c p.execution (log', .ok report) ∧ report.Covers schema ∧
        ∀ now traces context,
          (p.provision now log traces (.compiled c) schema context).1 = log' ∧
          (p.traced = false ∨ context.isTraceable schema = true → ∃ traceId?,
            (p.provision now log traces (.compiled c) schema context).2.2 =
              .ok ⟨report, traceId?⟩) := by
  have passes : schema.passes p.limits = true := passed
  have sound := (schema.passes_iff p.limits).mp passes
  have account := execute_accounted sound p.execution p.engine log options
  obtain ⟨log', report, ran⟩ := execute_reports connects p.execution log (.ofSchema options schema)
  rw [ran] at account
  refine ⟨.ofSchema options schema, by rw [compile, if_pos passes], log', report, ran, account,
    account.covers sound, fun now traces context => ?_⟩
  exact p.provision_compiled passes options ran now traces context

/-- A database whose second commit fails. -/
theorem deals_second_commit_refused_accounts :
    let fault : EngineFault := ⟨"OperationalError", "disk full", none⟩
    let engine : Engine := fun log call =>
      if call = .commit ∧ log.count .commit = 1 then some fault else none
    (validate (.schema .deals) .standard).passed = true ∧ engine.Connects ∧
      ∃ c, compile .standard .standard .deals = .ok c ∧
        ∃ log' report, Execution.perEntity.execute engine [] c = (log', .ok report) ∧
          Accounted engine [] c .perEntity (log', .ok report) ∧ report.Covers .deals := by
  intro fault engine
  have connects : engine.Connects := fun log => if_neg (by simp)
  obtain ⟨c, compiled, log', report, ran, account, covers, -⟩ :=
    Provisioner.report_accounts ⟨.standard, .perEntity, engine, false⟩ connects .standard .deals
      Schema.deals_passed []
  exact ⟨Schema.deals_passed, connects, c, compiled, log', report, ran, account, covers⟩

end Schemata
