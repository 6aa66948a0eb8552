import Mathlib.Data.List.Induction
import Schemata.Proofs.Lock.Calls

/-! Cleaning up between calls. What a call gives or shows depends on nothing but the rows that have
not lapsed, and so do these rows after it. Cleaning up takes lapsed rows away and no others, so
however often it is done in between, all that anybody can tell from it is whether a lapsed lock
could still be given back or counted. -/

namespace Schemata

/-- What a lock table is asked, and the cleanups that are made besides. -/
inductive LockEvent where
  | call (r : LockRequest)
  | sweep (now : Instant)
  deriving DecidableEq, Repr

namespace LockEvent

/-- A cleanup that is made besides is a call like any other. -/
def request : LockEvent → LockRequest
  | call r => r
  | sweep now => .at now .cleanup

/-- What is asked when nobody cleans up besides. -/
def asked? : LockEvent → Option LockRequest
  | call r => some r
  | sweep _ => none

end LockEvent

/-- Whether a call gives or shows a lock. The other calls say which rows they have taken away,
lapsed ones too. -/
def LockCall.concernsLive : LockCall → Bool
  | acquire .. | extend .. | look _ => true
  | release .. | cleanup => false

variable {terms : LockTerms} {table other : LockTable} {now later moment : Instant}
  {project : String} {lock held : Lock} {r : LockRequest}

theorem Lock.isExpired_of_le {row : Lock} (lapsed : row.isExpired now = true)
    (passed : now ≤ later) :
    row.isExpired later = true := by
  have ended : row.expires ≤ now := of_decide_eq_true lapsed
  exact decide_eq_true (Instant.le_trans ended passed)

theorem Clocked.append {first second : List LockRequest} (clocked : Clocked (first ++ second)) :
    Clocked first ∧ ∀ earlier ∈ first, ∀ later ∈ second, earlier.now ≤ later.begun := by
  obtain ⟨between, -, ordered⟩ := List.pairwise_append.mp clocked.between
  exact ⟨⟨fun r member => clocked.within r (List.mem_append_left _ member), between⟩, ordered⟩

namespace LockTable

/-- The rows that have not lapsed. -/
def live (table : LockTable) (now : Instant) : LockTable :=
  table.filter fun row => !row.isExpired now

theorem mem_live {row : Lock} : row ∈ table.live now ↔ row ∈ table ∧ row.isExpired now = false := by
  rw [live, List.mem_filter, Bool.not_eq_true']

theorem live_live (table : LockTable) (passed : now ≤ later) :
    (table.live now).live later = table.live later := by
  rw [live, live, List.filter_filter, live]
  refine List.filter_congr fun row _ => ?_
  cases lapsed : row.isExpired now with
  | false => simp
  | true => simp [Lock.isExpired_of_le lapsed passed]

theorem live_eq_of_le (level : table.live now = other.live now) (passed : now ≤ later) :
    table.live later = other.live later := by
  rw [← live_live table passed, level, live_live other passed]

theorem fst_cleanup (table : LockTable) (now : Instant) :
    (table.cleanup now).1 = table.live now := rfl

/-- Rows are kept or dropped for what they are, whether or not the lapsed ones are gone. -/
theorem live_filter (keep : Lock → Bool) (level : table.live now = other.live now) :
    live (table.filter keep) now = live (other.filter keep) now := by
  have swap (rows : LockTable) : live (rows.filter keep) now = (rows.live now).filter keep :=
    List.filter_comm ..
  rw [swap, swap, level]

/-! ### What calls read of a table -/

theorem OneEach.lock?_eq_some_iff (single : table.OneEach) :
    table.lock? now project = some lock ↔ lock ∈ table.live now ∧ lock.project = project := by
  rw [mem_live]
  constructor
  · intro found
    obtain ⟨member, named, unlapsed⟩ := lock?_eq_some found
    exact ⟨⟨member, unlapsed⟩, named⟩
  · rintro ⟨⟨member, unlapsed⟩, rfl⟩
    exact single.lock? member unlapsed

theorem lock?_level (single : table.OneEach) (also : other.OneEach)
    (level : table.live now = other.live now) (project : String) :
    table.lock? now project = other.lock? now project := by
  refine Option.ext fun lock => ?_
  rw [single.lock?_eq_some_iff, also.lock?_eq_some_iff, level]

/-- A new end for the lock of a project does not bring lapsed rows back. -/
theorem live_renewed (single : table.OneEach) (found : table.lock? now project = some held)
    (renewed : Lock) (passed : now ≤ later) :
    live (table.map fun row => if row.project = project then renewed else row) later =
      live ((table.live now).map fun row => if row.project = project then renewed
        else row) later := by
  simp only [live, List.filter_map, List.filter_filter]
  refine congrArg _ (List.filter_congr fun row member => ?_)
  rw [Function.comp_apply]
  cases lapsed : row.isExpired now with
  | false => simp
  | true =>
    -- The project has no other row than its lock, and this one has not lapsed.
    have elsewhere : row.project ≠ project := by
      intro named
      obtain ⟨inside, same, unlapsed⟩ := lock?_eq_some found
      obtain rfl := List.inj_on_of_nodup_map single member inside (named.trans same.symm)
      simp [lapsed] at unlapsed
    simp [elsewhere, Lock.isExpired_of_le lapsed passed]

/-- Where the same rows have not lapsed, an acquisition has the same outcome and leaves the same
such rows. -/
theorem acquire_level (single : table.OneEach) (also : other.OneEach)
    (level : table.live now = other.live now) (project user : String) (minutes? : Option Int) :
    (table.settle (table.acquire terms now project user minutes?)).2 =
        (other.settle (other.acquire terms now project user minutes?)).2 ∧
      ∀ later, now ≤ later →
        (table.settle (table.acquire terms now project user minutes?)).1.live later =
          (other.settle (other.acquire terms now project user minutes?)).1.live later := by
  have kept : ∀ later, now ≤ later → table.live later = other.live later :=
    fun later => live_eq_of_le level
  have same := lock?_level single also level project
  simp only [acquire]
  split
  · exact ⟨rfl, kept⟩
  · rw [same]
    cases found : other.lock? now project with
    | none =>
      refine ⟨rfl, fun later passed => ?_⟩
      have outside := live_filter (fun row => row.project != project) (kept later passed)
      simp only [settle, live, List.filter_append, others] at outside ⊢
      rw [outside]
    | some held =>
      dsimp only
      split
      · exact ⟨rfl, kept⟩
      · refine ⟨rfl, fun later passed => ?_⟩
        simp only [settle]
        rw [live_renewed single (same.trans found) _ passed, level,
          ← live_renewed also found _ passed]

/-- Where the same rows have not lapsed when a request begins, it is answered alike, and the same
rows have not lapsed from then on. -/
theorem serve_level (single : table.OneEach) (also : other.OneEach) (within : r.begun ≤ r.now)
    (level : table.live r.begun = other.live r.begun) :
    (r.call.concernsLive = true → (table.serve terms r).2 = (other.serve terms r).2) ∧
      ∀ later, r.now ≤ later → (table.serve terms r).1.live later =
        (other.serve terms r).1.live later := by
  obtain ⟨begun, now, call⟩ := r
  have come : table.live now = other.live now := live_eq_of_le level within
  have kept : ∀ later, now ≤ later → table.live later = other.live later :=
    fun later => live_eq_of_le come
  cases call with
  | acquire project user minutes? =>
    obtain ⟨answer, rows⟩ := acquire_level single also come project user minutes?
    exact ⟨fun _ => answer, rows⟩
  | extend project user minutes? =>
    -- The lock is looked at when the call begins, and acquired when it comes to the rows.
    obtain ⟨answer, rows⟩ := acquire_level single also come project user minutes?
    simp only [serve, renew, lock?_level single also level project]
    cases other.lock? begun project with
    | none => exact ⟨fun _ => rfl, kept⟩
    | some held =>
      dsimp only
      split
      · exact ⟨fun _ => answer, rows⟩
      · exact ⟨fun _ => rfl, kept⟩
  | release project user =>
    refine ⟨fun shown => absurd shown Bool.false_ne_true, fun later passed => ?_⟩
    exact live_filter _ (kept later passed)
  | look project =>
    refine ⟨fun _ => ?_, kept⟩
    simp only [serve, lock?_level single also come project]
  | cleanup =>
    refine ⟨fun shown => absurd shown Bool.false_ne_true, fun later passed => ?_⟩
    simp only [serve, fst_cleanup]
    rw [come]

/-! ### Runs with cleanups in between -/

/-- Cleanups in between do not change which rows have not lapsed. -/
theorem run_level (terms : LockTerms) (single : table.OneEach) {events : List LockEvent}
    (clocked : Clocked (events.map (·.request))) (passed : ∀ e ∈ events, e.request.now ≤ moment) :
    (run terms table (events.map (·.request))).live moment =
      (run terms table (events.filterMap (·.asked?))).live moment := by
  induction events using List.reverseRecOn generalizing moment with
  | nil => rfl
  | append_singleton events e ih =>
    have timely : e.request.begun ≤ e.request.now := clocked.within e.request (by simp)
    have reached : e.request.now ≤ moment := passed e (by simp)
    rw [List.map_append] at clocked
    obtain ⟨before, ordered⟩ := clocked.append
    have done : ∀ earlier ∈ events, earlier.request.now ≤ e.request.begun := fun earlier member =>
      ordered earlier.request (List.mem_map_of_mem member) e.request (by simp)
    have level := ih before done
    rw [List.map_append, List.map_singleton, run_concat, List.filterMap_append]
    cases e with
    | call r =>
      obtain ⟨-, rows⟩ := serve_level (single.run terms _) (single.run terms _) timely level
      simp only [LockEvent.request, LockEvent.asked?, List.filterMap_cons,
        List.filterMap_nil, run_concat]
      exact rows moment reached
    | sweep now =>
      simp only [LockEvent.request, LockEvent.asked?, List.filterMap_cons, List.filterMap_nil,
        List.append_nil]
      exact (live_live _ reached).trans (live_eq_of_le level reached)

/-- Cleaning up is not to be noticed, whatever rows a table holds as long as no project has two:
whenever it is done between calls, the calls that give or show locks are answered as if it was not,
and the same rows have not lapsed all along. -/
theorem sweeps_unobservable (terms : LockTerms) (table : LockTable) (single : table.OneEach)
    (events : List LockEvent) (clocked : Clocked (events.map (·.request))) :
    ∀ before after, events = before ++ after →
      (∀ moment, (∀ e ∈ before, e.request.now ≤ moment) →
        (run terms table (before.map (·.request))).live moment =
          (run terms table (before.filterMap (·.asked?))).live moment) ∧
      ∀ r rest, after = .call r :: rest → r.call.concernsLive = true →
        ((run terms table (before.map (·.request))).serve terms r).2 =
          ((run terms table (before.filterMap (·.asked?))).serve terms r).2 := by
  rintro before after rfl
  have within := clocked.within
  rw [List.map_append] at clocked
  obtain ⟨begun, ordered⟩ := clocked.append
  refine ⟨fun moment passed => run_level terms single begun passed, ?_⟩
  rintro r rest rfl shown
  have timely : r.begun ≤ r.now := within r (by simp [LockEvent.request])
  have done : ∀ e ∈ before, e.request.now ≤ r.begun := fun e member =>
    ordered e.request (List.mem_map_of_mem member) r (by simp [LockEvent.request])
  have level := run_level terms single begun done
  exact (serve_level (single.run terms _) (single.run terms _) timely level).1 shown

/-- Ada's lock has lapsed when somebody cleans up, so she has none to give back any more. Cleo
cannot tell: the project is hers either way, and Bob's is not. -/
theorem lapsed_lock_swept_unobserved :
    let table : LockTable :=
      [⟨"crm", "ada", .ofSeconds 0, .ofSeconds 60⟩, ⟨"erp", "bob", .ofSeconds 0, .ofSeconds 300⟩]
    let release := LockRequest.at (.ofSeconds 121) (.release "crm" "ada")
    let before : List LockEvent := [.sweep (.ofSeconds 120), .call release,
      .call (.at (.ofSeconds 122) (.acquire "crm" "cleo" none)), .sweep (.ofSeconds 200)]
    let ask := LockRequest.at (.ofSeconds 201) (.acquire "erp" "cleo" none)
    let events : List LockEvent := before ++ [.call ask]
    let swept := run ⟨5, 10⟩ table (before.map (·.request))
    let unswept := run ⟨5, 10⟩ table (before.filterMap (·.asked?))
    table.OneEach ∧ Clocked (events.map (·.request)) ∧
      (table.serve ⟨5, 10⟩ release).2 = .released true ∧
      ((run ⟨5, 10⟩ table [.at (.ofSeconds 120) .cleanup]).serve ⟨5, 10⟩ release).2 =
        .released false ∧
      (∀ moment, Instant.ofSeconds 200 ≤ moment → swept.live moment = unswept.live moment) ∧
      (swept.serve ⟨5, 10⟩ ask).2 = (unswept.serve ⟨5, 10⟩ ask).2 := by
  intro table release before ask events swept unswept
  have single : table.OneEach := by unfold OneEach; decide
  have clocked : Clocked (events.map (·.request)) := ⟨by decide, by decide⟩
  obtain ⟨rows, answer⟩ :=
    sweeps_unobservable ⟨5, 10⟩ table single events clocked before [.call ask] rfl
  refine ⟨single, clocked, by decide, by decide, fun moment passed =>
    rows moment ?_, answer ask [] rfl rfl⟩
  have last : ∀ e ∈ before, e.request.now ≤ Instant.ofSeconds 200 := by decide
  exact fun e member => Instant.le_trans (last e member) passed

end LockTable

end Schemata
