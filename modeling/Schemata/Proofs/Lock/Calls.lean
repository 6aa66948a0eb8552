import Mathlib.Data.List.Nodup
import Schemata.Proofs.Keyed
import Schemata.Proofs.Lock.Acquisition

/-! Runs of calls to a lock table. A call gives a user the lock of a project, or leaves all rows as
they are, or drops rows that its user owns or that have lapsed. A project never has two rows. -/

namespace Schemata

namespace Instant

theorem lt_iff {a b : Instant} : a < b ↔ a.micros < b.micros := Iff.rfl

theorem le_iff {a b : Instant} : a ≤ b ↔ a.micros ≤ b.micros := Iff.rfl

theorem le_trans {a b c : Instant} (first : a ≤ b) (second : b ≤ c) : a ≤ c :=
  Int.le_trans first second

theorem lt_of_le_of_lt {a b c : Instant} (first : a ≤ b) (second : b < c) : a < c :=
  Int.lt_of_le_of_lt first second

@[simp] theorem micros_plusMinutes (t : Instant) (minutes : Int) :
    (t.plusMinutes minutes).micros = t.micros + minutes * 60000000 := by
  simp only [plusMinutes, plusSeconds, plusMicros]
  omega

end Instant

theorem Lock.isExpired_eq_false_iff {lock : Lock} {now : Instant} :
    lock.isExpired now = false ↔ now < lock.expires := by
  rw [isExpired, decide_eq_false_iff_not, Instant.le_iff, Instant.lt_iff, Int.not_le]

/-- What is asked of a lock table. -/
inductive LockCall where
  | acquire (project user : String) (minutes? : Option Int)
  | extend (project user : String) (minutes? : Option Int)
  | release (project user : String)
  | look (project : String)
  | cleanup
  deriving DecidableEq, Repr

/-- The user who calls. Looking and cleaning up are done for nobody in particular. -/
def LockCall.user? : LockCall → Option String
  | acquire _ user _ | extend _ user _ | release _ user => some user
  | look _ | cleanup => none

/-- The project that a call is about. -/
def LockCall.project? : LockCall → Option String
  | acquire project _ _ | extend project _ _ | release project _ | look project => some project
  | cleanup => none

/-- A call with the time when it begins and the time when it comes to the rows. -/
structure LockRequest where
  begun : Instant
  now : Instant
  call : LockCall
  deriving DecidableEq, Repr

/-- A call that takes no time. -/
def LockRequest.at (now : Instant) (call : LockCall) : LockRequest := ⟨now, now, call⟩

/-- A clock that never goes backwards is read during all calls. -/
structure Clocked (requests : List LockRequest) : Prop where
  within : ∀ r ∈ requests, r.begun ≤ r.now
  between : requests.Pairwise fun earlier later => earlier.now ≤ later.begun

inductive LockAnswer where
  | granted (lock : Lock)
  | refused (error : LockError)
  | released (had : Bool)
  | found (lock? : Option Lock)
  | removed (count : Nat)
  deriving DecidableEq, Repr

namespace LockTable

/-- A lock that is refused leaves the rows as they are. -/
def settle (table : LockTable) : Except LockError (LockTable × Lock) → LockTable × LockAnswer
  | .ok (after, lock) => (after, .granted lock)
  | .error e => (table, .refused e)

def serve (terms : LockTerms) (table : LockTable) (r : LockRequest) : LockTable × LockAnswer :=
  match r.call with
  | .acquire project user minutes? =>
    table.settle (table.acquire terms r.now project user minutes?)
  | .extend project user minutes? =>
    table.settle (table.renew terms r.begun r.now project user minutes?)
  | .release project user =>
    let (kept, had) := table.release project user
    (kept, .released had)
  | .look project => (table, .found (table.lock? r.now project))
  | .cleanup =>
    let (kept, count) := table.cleanup r.now
    (kept, .removed count)

/-- The table after requests, one after the other. -/
def run (terms : LockTerms) (table : LockTable) (requests : List LockRequest) : LockTable :=
  requests.foldl (fun table r => (table.serve terms r).1) table

/-- After requests to an empty table one more is given a lock. -/
def Grants (terms : LockTerms) (before : List LockRequest) (r : LockRequest) (lock : Lock) : Prop :=
  ((run terms [] before).serve terms r).2 = .granted lock

instance (terms : LockTerms) (before : List LockRequest) (r : LockRequest) (lock : Lock) :
    Decidable (Grants terms before r lock) :=
  inferInstanceAs (Decidable (_ = _))

@[simp] theorem run_nil (terms : LockTerms) (table : LockTable) : run terms table [] = table := rfl

theorem run_concat (terms : LockTerms) (table : LockTable) (requests : List LockRequest)
    (r : LockRequest) :
    run terms table (requests ++ [r]) = ((run terms table requests).serve terms r).1 :=
  List.foldl_concat ..

/-- All that a request can do to a table, and what is answered. -/
inductive Serves (terms : LockTerms) (table : LockTable) (r : LockRequest) :
    LockTable → LockAnswer → Prop where
  | granted (asker : r.call.user? = some user) (asked : r.call.project? = some project)
      (made : table.acquire terms r.now project user minutes? = .ok (after, lock)) :
      Serves terms table r after (.granted lock)
  | refused (e : LockError) : Serves terms table r table (.refused e)
  | released (asked : r.call = .release project user) (had : Bool) :
      Serves terms table r
        (table.filter fun row => !(row.project == project && row.user == user)) (.released had)
  | found (lock? : Option Lock) : Serves terms table r table (.found lock?)
  | removed (count : Nat) :
      Serves terms table r (table.filter fun row => !row.isExpired r.now) (.removed count)

variable {terms : LockTerms} {table after : LockTable} {now : Instant} {project user : String}
  {minutes? : Option Int} {lock : Lock} {r : LockRequest}

theorem serve_serves (terms : LockTerms) (table : LockTable) (r : LockRequest) :
    Serves terms table r (table.serve terms r).1 (table.serve terms r).2 := by
  obtain ⟨begun, now, call⟩ := r
  cases call with
  | acquire project user minutes? =>
    simp only [serve]
    cases made : table.acquire terms now project user minutes? with
    | ok got => exact .granted (by rfl) (by rfl) made
    | error e => exact .refused e
  | extend project user minutes? =>
    simp only [serve, renew]
    cases table.lock? begun project with
    | none => exact .refused _
    | some held =>
      dsimp only
      split
      · cases made : table.acquire terms now project user minutes? with
        | ok got => exact .granted (by rfl) (by rfl) made
        | error e => exact .refused e
      · exact .refused _
  | release project user => exact .released rfl _
  | look project => exact .found _
  | cleanup => exact .removed _

/-- A lock that is answered was acquired. -/
theorem acquired_of_granted (granted : (table.serve terms r).2 = .granted lock) :
    r.call.user? = some lock.user ∧ r.call.project? = some lock.project ∧
      ∃ minutes?, Acquired terms r.now table lock.project lock.user minutes?
        (table.serve terms r).1 lock := by
  have served := serve_serves terms table r
  rw [granted] at served
  generalize (table.serve terms r).1 = after at served ⊢
  cases served with
  | granted asker asked made =>
    have got := acquired made
    rw [← got.ofUser] at asker got
    rw [← got.ofProject] at asked got
    exact ⟨asker, asked, _, got⟩

/-! ### One row for each project -/

/-- No project has two rows. -/
def OneEach (table : LockTable) : Prop := (table.map (·.project)).Nodup

namespace OneEach

theorem filter (single : table.OneEach) (keep : Lock → Bool) : OneEach (table.filter keep) :=
  (List.filter_sublist.map _).nodup single

private theorem acquire (single : table.OneEach)
    (made : table.acquire terms now project user minutes? = .ok (after, lock)) : after.OneEach := by
  have got := acquired made
  unfold LockTable.acquire at made
  simp only at made
  split at made
  · cases made
  cases found : table.lock? now project with
  | none =>
    rw [found] at made
    obtain ⟨rfl, rfl⟩ := Prod.mk.inj (Except.ok.inj made)
    have fresh : project ∉ (table.others project).map (·.project) := by
      intro listed
      obtain ⟨row, member, named⟩ := List.mem_map.mp listed
      exact (mem_others.mp member).2 named
    rw [OneEach, List.map_append, List.nodup_append]
    refine ⟨single.filter _, List.nodup_singleton _, ?_⟩
    rintro name listed _ new rfl
    have same : name = project := List.mem_singleton.mp new
    exact fresh (same ▸ listed)
  | some held =>
    rw [found] at made
    simp only at made
    split at made
    · cases made
    obtain ⟨rfl, rfl⟩ := Prod.mk.inj (Except.ok.inj made)
    have names : (table.map fun row => if row.project = project then
        { held with expires := now.plusMinutes (minutes?.getD terms.usual) } else row).map
        (·.project) = table.map (·.project) := by
      rw [List.map_map]
      refine List.map_congr_left fun row _ => ?_
      rw [Function.comp_apply]
      split
      · rename_i same
        exact got.ofProject.trans same.symm
      · rfl
    rw [OneEach, names]
    exact single

private theorem serve (single : table.OneEach) (terms : LockTerms) (r : LockRequest) :
    (table.serve terms r).1.OneEach := by
  have served := serve_serves terms table r
  generalize (table.serve terms r).1 = after, (table.serve terms r).2 = answer at served ⊢
  cases served with
  | granted _ _ made => exact single.acquire made
  | refused e => exact single
  | released _ had => exact single.filter _
  | found lock? => exact single
  | removed count => exact single.filter _

theorem run (single : table.OneEach) (terms : LockTerms) (requests : List LockRequest) :
    (run terms table requests).OneEach := by
  induction requests generalizing table with
  | nil => exact single
  | cons r rest ih => exact ih (single.serve terms r)

theorem lock? (single : table.OneEach) (member : row ∈ table) (live : row.isExpired now = false) :
    table.lock? now row.project = some row := by
  have first := (Keyed.find?_eq_some_iff single).mpr ⟨member, rfl⟩
  rw [LockTable.lock?, first, Option.filter_some, if_pos (by simp [live])]

end OneEach

theorem oneEach_run (terms : LockTerms) (requests : List LockRequest) :
    (run terms [] requests).OneEach := by
  have single : OneEach [] := List.nodup_nil
  exact single.run terms requests

/-! ### What a request leaves -/

theorem Acquired.mem_other (got : Acquired terms now table project user minutes? after lock)
    (elsewhere : row.project ≠ project) : row ∈ after ↔ row ∈ table := by
  have same : row ∈ after.others project ↔ row ∈ table.others project := by rw [got.others]
  simpa [mem_others, elsewhere] using same

/-- A row that has not lapsed stays what it is, unless its own user calls. -/
theorem serve_keeps (single : table.OneEach) (member : row ∈ table)
    (live : row.isExpired r.now = false) (foreign : r.call.user? ≠ some row.user) :
    row ∈ (table.serve terms r).1 := by
  have served := serve_serves terms table r
  generalize (table.serve terms r).1 = after, (table.serve terms r).2 = answer at served ⊢
  cases served with
  | @granted user project minutes? after lock asker _ made =>
    have got := acquired made
    by_cases named : row.project = project
    · -- Nobody else gets the lock of the row's user.
      have held := single.lock? member live
      rw [named] at held
      exact absurd (got.unopposed row held ▸ asker) foreign
    · exact (got.mem_other named).mpr member
  | refused e => exact member
  | @released project user asked had =>
    refine List.mem_filter.mpr ⟨member, ?_⟩
    have differs : row.user ≠ user := by
      rintro rfl
      exact foreign (asked ▸ rfl)
    simp [differs]
  | found lock? => exact member
  | removed count => exact List.mem_filter.mpr ⟨member, by simp [live]⟩

theorem mem_of_mem_serve (ungranted : ∀ lock, (table.serve terms r).2 ≠ .granted lock)
    (member : row ∈ (table.serve terms r).1) : row ∈ table := by
  have served := serve_serves terms table r
  generalize (table.serve terms r).1 = after, (table.serve terms r).2 = answer
    at served member ungranted
  cases served with
  | granted _ _ _ => exact absurd rfl (ungranted _)
  | refused e => exact member
  | released _ had => exact (List.mem_filter.mp member).1
  | found lock? => exact member
  | removed count => exact (List.mem_filter.mp member).1

/-- A lock lasts beyond the moment at which it is given, and not longer than the terms allow. -/
theorem Acquired.lasts (got : Acquired terms now table project user minutes? after lock) :
    now < lock.expires ∧ lock.expires ≤ now.plusMinutes terms.longest := by
  obtain ⟨least, longest⟩ := got.granted
  rw [got.expires, Instant.lt_iff, Instant.le_iff, Instant.micros_plusMinutes,
    Instant.micros_plusMinutes]
  rw [leastLockMinutes] at least
  omega

end LockTable

end Schemata
