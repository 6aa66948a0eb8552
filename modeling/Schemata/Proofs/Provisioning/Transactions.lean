import Schemata.Provisioning.Engine

/-! How transactions go. Statements are put to the engine up to the first that it refuses, and a
transaction that was opened ends in a commit that is taken or in a rollback. -/

namespace Schemata

/-- What came of a transaction: the calls that it made, and the fault that ended it if one did. -/
structure Trial where
  calls : List EngineCall
  fault? : Option EngineFault

def Trial.passed (t : Trial) : Bool := t.fault?.isNone

namespace Engine

variable (engine : Engine)

/-- Connections are never refused. -/
def Connects : Prop := ∀ log, engine log .connect = none

/-- From a log on the engine takes some calls, each after the ones before. -/
def Accepts (log : EngineLog) : List EngineCall → Prop
  | [] => True
  | call :: rest => engine log call = none ∧ Accepts (log ++ [call]) rest

/-- How the transaction of some statements can go. What follows a refused statement is not put to
the engine, and a refused commit undoes as much as a refused statement. -/
inductive Tries (log : EngineLog) (statements : List String) : Trial → Prop where
  | unopened (refused : engine log .begin = some fault) :
      Tries log statements ⟨[.begin], some fault⟩
  | committed (opened : engine log .begin = none)
      (taken : engine.Accepts (log ++ [.begin]) (statements.map .run ++ [.commit])) :
      Tries log statements ⟨.begin :: (statements.map .run ++ [.commit]), none⟩
  | uncommitted (opened : engine log .begin = none)
      (taken : engine.Accepts (log ++ [.begin]) (statements.map .run))
      (refused : engine (log ++ [.begin] ++ statements.map .run) .commit = some fault) :
      Tries log statements ⟨.begin :: (statements.map .run ++ [.commit, .rollback]), some fault⟩
  | stopped (opened : engine log .begin = none) (split : statements = done ++ sql :: rest)
      (taken : engine.Accepts (log ++ [.begin]) (done.map .run))
      (refused : engine (log ++ [.begin] ++ done.map .run) (.run sql) = some fault) :
      Tries log statements ⟨.begin :: (done.map .run ++ [.run sql, .rollback]), some fault⟩

variable {engine}

theorem accepts_append : engine.Accepts log (first ++ second) ↔
    engine.Accepts log first ∧ engine.Accepts (log ++ first) second := by
  induction first generalizing log with
  | nil => simp [Accepts]
  | cons call rest ih => simp [Accepts, ih, and_assoc]

/-- Statements are put to the engine up to the first that it refuses. -/
theorem runAll_cases (engine : Engine) (log : EngineLog) (statements : List String) :
    (engine.Accepts log (statements.map .run) ∧
      engine.runAll log statements = (log ++ statements.map .run, none)) ∨
    ∃ done sql rest fault, statements = done ++ sql :: rest ∧ engine.Accepts log (done.map .run) ∧
      engine (log ++ done.map .run) (.run sql) = some fault ∧
      engine.runAll log statements = (log ++ done.map .run ++ [.run sql], some fault) := by
  induction statements generalizing log with
  | nil => exact .inl ⟨trivial, by simp [runAll]⟩
  | cons sql rest ih =>
    cases verdict : engine log (.run sql) with
    | some fault =>
      exact .inr ⟨[], sql, rest, fault, rfl, trivial, by simpa using verdict,
        by simp [runAll, call, verdict]⟩
    | none =>
      have onward : engine.runAll log (sql :: rest) = engine.runAll (log ++ [.run sql]) rest := by
        simp [runAll, call, verdict]
      rw [onward]
      rcases ih (log ++ [.run sql]) with
        ⟨taken, ran⟩ | ⟨done, last, left, fault, split, taken, refused, ran⟩
      · exact .inl ⟨⟨verdict, taken⟩, by simp [ran]⟩
      · exact .inr ⟨sql :: done, last, left, fault, by rw [split, List.cons_append],
          ⟨verdict, taken⟩, by simpa using refused, by simp [ran]⟩

theorem transact_tries (engine : Engine) (log : EngineLog) (statements : List String) :
    ∃ trial, engine.Tries log statements trial ∧
      engine.transact log statements = (log ++ trial.calls, trial.fault?) := by
  unfold transact call
  cases opened : engine log .begin with
  | some fault => exact ⟨_, .unopened opened, rfl⟩
  | none =>
    dsimp only
    rcases engine.runAll_cases (log ++ [.begin]) statements with
      ⟨taken, ran⟩ | ⟨done, sql, rest, fault, split, taken, refused, ran⟩
    · cases verdict : engine (log ++ [.begin] ++ statements.map .run) .commit with
      | some fault =>
        refine ⟨_, .uncommitted opened taken verdict, ?_⟩
        simp only [ran, verdict]
        simp
      | none =>
        have last : engine.Accepts (log ++ [.begin] ++ statements.map .run) [.commit] :=
          ⟨verdict, trivial⟩
        refine ⟨_, .committed opened (accepts_append.mpr ⟨taken, last⟩), ?_⟩
        simp only [ran, verdict]
        simp
    · exact ⟨_, .stopped opened split taken refused, by simp [ran]⟩

end Engine

end Schemata
