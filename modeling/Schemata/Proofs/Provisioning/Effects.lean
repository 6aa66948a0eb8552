import Schemata.Provisioning.Execution
import Schemata.Proofs.Ddl.Orders
import Schemata.Proofs.Provisioning.Transactions

/-! What a database keeps of the calls that it gets. The statements of a transaction wait for its
commit, and a script that is a transaction of its own brings all its statements or none. So a run
makes the statements of a table last together or not at all. -/

namespace Schemata

open Ddl

/-- The statements that last, and those of the open transaction when there is one. -/
structure Effects where
  lasting : List String
  waiting? : Option (List String)

namespace Effects

variable (engine : Engine) (c : Compilation)

/-- What lasts when no transaction is open. -/
def settled (lasting : List String) : Effects := ⟨lasting, none⟩

@[simp] theorem settled_lasting (lasting : List String) : (settled lasting).lasting = lasting := rfl

/-- What a call changes, given whether it is refused. Outside of transactions the only text that
defines something is the script of the compilation. -/
def next (e : Effects) : EngineCall → Bool → Effects
  | .begin, false => { e with waiting? := some [] }
  | .run _, true => e
  | .run sql, false =>
    match e.waiting? with
    | some waiting => { e with waiting? := some (waiting ++ [sql]) }
    | none => { e with
        lasting := e.lasting ++ if sql = c.text then c.statements.map Statement.sql else [] }
  | .commit, false => .settled (e.lasting ++ e.waiting?.getD [])
  | .begin, true | .commit, true | .rollback, _ | .connect, _ | .close, _ => .settled e.lasting

/-- What calls change, one after the other; the log tells which of them the engine refuses. -/
def replay (log : EngineLog) (e : Effects) : List EngineCall → Effects
  | [] => e
  | call :: rest => replay (log ++ [call]) (e.next c call (engine log call).isSome) rest

theorem replay_append (first second : List EngineCall) :
    replay engine c log e (first ++ second) =
      replay engine c (log ++ first) (replay engine c log e first) second := by
  induction first generalizing log e with
  | nil => simp [replay]
  | cons call rest ih => simp [replay, ih]

/-- Calls lead from a log and its effects to a longer log and the effects there. -/
def Leads (log : EngineLog) (e : Effects) (log' : EngineLog) (e' : Effects) : Prop :=
  ∃ calls, log' = log ++ calls ∧ replay engine c log e calls = e'

variable {engine c}

theorem Leads.trans (first : Leads engine c log e log' e')
    (second : Leads engine c log' e' log'' e'') :
    Leads engine c log e log'' e'' := by
  obtain ⟨calls, rfl, rfl⟩ := first
  obtain ⟨more, rfl, rfl⟩ := second
  exact ⟨calls ++ more, List.append_assoc .., replay_append engine c calls more⟩

theorem Leads.call (call : EngineCall) :
    Leads engine c log e (log ++ [call]) (e.next c call (engine log call).isSome) :=
  ⟨[call], rfl, rfl⟩

/-! ### Transactions and scripts -/

variable (c) (earlier : List String)

/-- Statements of a transaction that the engine takes wait for its end. -/
theorem replay_waiting (taken : engine.Accepts log (statements.map .run)) (waiting : List String) :
    replay engine c log ⟨earlier, some waiting⟩ (statements.map .run) =
      ⟨earlier, some (waiting ++ statements)⟩ := by
  induction statements generalizing log waiting with
  | nil => simp [replay]
  | cons sql rest ih =>
    obtain ⟨first, later⟩ := taken
    simp only [List.map_cons, replay, first, Option.isSome_none, next, ih later]
    simp

/-- So they wait in front of whatever ends the transaction. -/
theorem replay_opened (opened : engine log .begin = none)
    (taken : engine.Accepts (log ++ [.begin]) (statements.map .run)) (ending : List EngineCall) :
    replay engine c log (.settled earlier) (.begin :: (statements.map .run ++ ending)) =
      replay engine c (log ++ [.begin] ++ statements.map .run) ⟨earlier,
        some statements⟩ ending := by
  rw [replay, opened, Option.isSome_none, next, settled, replay_append,
    replay_waiting c earlier taken, List.nil_append]

/-- A transaction makes all its statements last, or none when something is refused. -/
theorem transact_leads (made : engine.transact log statements = (log', fault?)) :
    Leads engine c log (.settled earlier) log'
      (.settled (earlier ++ if fault?.isNone then statements else [])) := by
  obtain ⟨trial, tried, same⟩ := engine.transact_tries log statements
  obtain ⟨rfl, rfl⟩ := Prod.mk.inj (made.symm.trans same)
  refine ⟨trial.calls, rfl, ?_⟩
  cases tried with
  | unopened refused =>
    simp only [replay, refused]
    simp [next, settled]
  | committed opened taken =>
    obtain ⟨ran, last, -⟩ := Engine.accepts_append.mp taken
    rw [replay_opened c earlier opened ran]
    simp only [replay, last]
    simp [next]
  | uncommitted opened taken refused =>
    rw [replay_opened c earlier opened taken]
    simp only [replay, refused]
    simp [next]
  | stopped opened split taken refused =>
    rw [replay_opened c earlier opened taken]
    simp only [replay, refused]
    simp [next]

private theorem next_rollback (refused : Bool) :
    next c (.settled earlier) (.run "ROLLBACK") refused = .settled earlier := by
  have differs : "ROLLBACK" ≠ c.text := by
    intro same
    have characters := congrArg String.toList same
    simp [Compilation.text, Compilation.parts, Compilation.header] at characters
  cases refused <;> simp [next, settled, differs]

/-- A script makes all its statements last, or none when it is refused. -/
theorem script_leads (made : engine.script log c.text = (log', fault?)) :
    Leads engine c log (.settled earlier) log' (.settled
      (earlier ++ if fault?.isNone then c.statements.map Statement.sql else [])) := by
  have ran : Leads engine c log (.settled earlier) (log ++ [.run c.text])
      (next c (.settled earlier) (.run c.text) (engine log (.run c.text)).isSome) :=
        .call (.run c.text)
  simp only [Engine.script, Engine.call] at made
  cases verdict : engine log (.run c.text) with
  | none =>
    rw [verdict] at made ran
    obtain ⟨rfl, rfl⟩ := Prod.mk.inj made
    simpa [next, settled] using ran.trans (.call .close)
  | some fault =>
    rw [verdict] at made ran
    obtain ⟨rfl, rfl⟩ := Prod.mk.inj made
    have stopped : Leads engine c log (.settled earlier) _ (.settled earlier) := ran
    have undone := stopped.trans (.call (.run "ROLLBACK"))
    rw [next_rollback] at undone
    simpa [next] using undone.trans (.call .close)

/-! ### Runs -/

theorem executeTable_leads (engine : Engine) (state : EngineLog × ExecutionReport) (name : String) :
    ∃ kept : List String, kept.Sublist [name] ∧
      Leads engine c state.1 (.settled earlier) (executeTable engine c state name).1
        (.settled (earlier ++ (c.blocks kept).map Statement.sql)) := by
  obtain ⟨log, report⟩ := state
  unfold executeTable
  cases outcome : engine.transact log (((c.forTable? name).getD []).map Statement.sql) with
  | mk after fault? =>
    have made := transact_leads c earlier outcome
    cases fault? with
    | none => exact ⟨[name], List.Sublist.refl _, by simpa [outcome, Compilation.blocks] using made⟩
    | some fault =>
      exact ⟨[], List.nil_sublist _, by simpa [outcome, Compilation.blocks] using made⟩

/-- Over a run table by table the statements of some of the tables last, in the order of the
tables. -/
theorem foldl_executeTable_leads (engine : Engine) (names : List String)
    (state : EngineLog × ExecutionReport) :
    ∃ kept : List String, kept.Sublist names ∧
      Leads engine c state.1 (.settled earlier) (names.foldl (executeTable engine c) state).1
        (.settled (earlier ++ (c.blocks kept).map Statement.sql)) := by
  induction names generalizing state earlier with
  | nil => exact ⟨[], List.nil_sublist _, [], by simp, by simp [replay, Compilation.blocks]⟩
  | cons name rest ih =>
    obtain ⟨first, inside, made⟩ := executeTable_leads c earlier engine state name
    obtain ⟨kept, within, onward⟩ := ih (earlier ++ (c.blocks first).map Statement.sql)
      (executeTable engine c state name)
    refine ⟨first ++ kept, inside.append within, ?_⟩
    simpa [Compilation.blocks] using made.trans onward

end Effects

/-- What may last of a run: the whole script, or what the tables share, or nothing, and the
statements of some of the tables. -/
inductive Ddl.Compilation.Lasting (c : Compilation) : List Statement → Prop where
  | script : Lasting c c.statements
  | tables (shared : front = [] ∨ front = c.shared) (kept : names.Sublist c.dependencyOrder) :
      Lasting c (front ++ c.blocks names)

open Effects in
/-- Every run, whatever the engine refuses, leads to an end without an open transaction. -/
theorem execute_leads (execution : Execution) (engine : Engine) (log : EngineLog)
    (c : Compilation) :
    ∃ statements, c.Lasting statements ∧
      Leads engine c log (.settled []) (execution.execute engine log c).1
        (.settled (statements.map Statement.sql)) := by
  cases execution with
  | atomic =>
    have connected : Leads engine c log (.settled []) (log ++ [.connect]) (.settled []) :=
      .call .connect
    have nothing : c.Lasting [] := .tables (.inl rfl) (List.nil_sublist _)
    simp only [Execution.execute, executeAtomic, Engine.call]
    cases engine log .connect with
    | some fault => exact ⟨[], nothing, connected⟩
    | none =>
      dsimp only
      cases outcome : engine.script (log ++ [.connect]) c.text with
      | mk after fault? =>
        have made := connected.trans (script_leads c [] outcome)
        cases fault? with
        | none => exact ⟨_, .script, by simpa using made⟩
        | some fault => exact ⟨[], nothing, by simpa using made⟩
  | perEntity =>
    have shared : ∃ front, (front = [] ∨ front = c.shared) ∧
        Leads engine c log (.settled []) (executeShared engine log c).1
          (.settled (front.map Statement.sql)) := by
      unfold executeShared
      cases outcome : engine.transact log (c.shared.map Statement.sql) with
      | mk after fault? =>
        have made := transact_leads c [] outcome
        cases fault? with
        | none => exact ⟨c.shared, .inr rfl, by simpa [outcome] using made⟩
        | some fault => exact ⟨[], .inl rfl, by simpa [outcome] using made⟩
    obtain ⟨front, known, begun⟩ := shared
    obtain ⟨kept, within, onward⟩ := foldl_executeTable_leads c (front.map Statement.sql) engine
      c.dependencyOrder (executeShared engine log c)
    refine ⟨_, .tables known within, ?_⟩
    simpa [Execution.execute, executePerEntity] using begun.trans onward

end Schemata
