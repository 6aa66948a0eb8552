import Mathlib.Data.List.Induction
import Schemata.Proofs.Lock.Calls

/-! What a lock table keeps over any run of calls: a project has one row at most, nobody loses a
lock that has not lapsed to somebody else, every row was given by some call and ends when the terms
say so, and its start is that of the hold that it belongs to. -/

namespace Schemata.LockTable

/-- What holds of every request of a list, given the ones before it. -/
def Along (holds : List LockRequest → LockRequest → Prop) (requests : List LockRequest) : Prop :=
  ∀ before r after, requests = before ++ r :: after → holds before r

theorem along_nil {holds : List LockRequest → LockRequest → Prop} : Along holds [] := by
  intro before r after split
  simp at split

theorem along_concat {holds : List LockRequest → LockRequest → Prop} {r : LockRequest} :
    Along holds (requests ++ [r]) ↔ Along holds requests ∧ holds requests r := by
  constructor
  · intro along
    refine ⟨fun before s after split => along before s (after ++ [r]) ?_, along requests r [] rfl⟩
    rw [split, List.append_assoc, List.cons_append]
  · rintro ⟨earlier, last⟩ before s after split
    cases after using List.reverseRecOn with
    | nil =>
      obtain ⟨rfl, same⟩ := List.append_inj' split rfl
      obtain rfl := List.head_eq_of_cons_eq same
      exact last
    | append_singleton after next =>
      have whole : requests ++ [r] = (before ++ s :: after) ++ [next] := by simpa using split
      exact earlier before s after (List.append_inj' whole rfl).1

/-- The request that wrote a row last: it was given the row as its lock, and none behind it was
given a lock of the same project. -/
structure Wrote (terms : LockTerms) (before : List LockRequest) (r : LockRequest)
    (rest : List LockRequest) (row : Lock) : Prop where
  granted : Grants terms before r row
  last : Along (fun between s => ∀ lock, Grants terms (before ++ r :: between) s lock →
    lock.project ≠ row.project) rest
  lasts : r.now < row.expires ∧ row.expires ≤ r.now.plusMinutes terms.longest

/-- The request that a hold began with: it was given a lock that nobody had. Since then the user has
had a row of the project all the time, and it had not lapsed whenever a lock of the project was
given. -/
structure Began (terms : LockTerms) (before : List LockRequest) (r : LockRequest)
    (rest : List LockRequest) (row : Lock) : Prop where
  first : ∃ lock, Grants terms before r lock ∧ lock.project = row.project ∧ lock.user = row.user
  free : (run terms [] before).lock? r.now row.project = none
  since : row.since = r.now
  present : ∀ between after, rest = between ++ after →
    ∃ held ∈ run terms [] (before ++ r :: between),
      held.project = row.project ∧ held.user = row.user ∧ held.since = row.since
  unlapsed : Along (fun between s => ∀ lock, Grants terms (before ++ r :: between) s lock →
    lock.project = row.project → ∃ held,
      (run terms [] (before ++ r :: between)).lock? s.now row.project = some held ∧
      held.user = row.user) rest

variable {terms : LockTerms} {before rest requests : List LockRequest} {r s : LockRequest}
  {row lock : Lock}

/-- A row after one more request is the lock that it was given, or it was there and the request was
given no lock of its project. -/
theorem mem_run_concat (member : row ∈ run terms [] (requests ++ [s])) :
    Grants terms requests s row ∨
    row ∈ run terms [] requests ∧
      ∀ lock, Grants terms requests s lock → lock.project ≠ row.project := by
  rw [run_concat] at member
  by_cases given : ∃ lock, Grants terms requests s lock
  · obtain ⟨lock, granted⟩ := given
    obtain ⟨-, -, minutes?, got⟩ := acquired_of_granted granted
    by_cases named : row.project = lock.project
    · exact .inl (got.only row member named ▸ granted)
    · refine .inr ⟨(got.mem_other named).mp member, fun other also => ?_⟩
      have same : lock = other := LockAnswer.granted.inj (granted.symm.trans also)
      exact same ▸ Ne.symm named
  · have none : ∀ lock, ¬ Grants terms requests s lock := fun lock granted => given ⟨lock, granted⟩
    exact .inr ⟨mem_of_mem_serve none member, fun lock granted => absurd granted (none lock)⟩

theorem Wrote.concat (wrote : Wrote terms before r rest row)
    (elsewhere : ∀ lock, Grants terms (before ++ r :: rest) s lock → lock.project ≠ row.project) :
    Wrote terms before r (rest ++ [s]) row :=
  ⟨wrote.granted, along_concat.mpr ⟨wrote.last, elsewhere⟩, wrote.lasts⟩

theorem Wrote.of_granted (granted : Grants terms requests s row) :
    Wrote terms requests s [] row := by
  obtain ⟨-, -, minutes?, got⟩ := acquired_of_granted granted
  exact ⟨granted, along_nil, got.lasts⟩

/-- Every row was written by some request last. -/
theorem exists_wrote (requests : List LockRequest) (member : row ∈ run terms [] requests) :
    ∃ before r rest, requests = before ++ r :: rest ∧ Wrote terms before r rest row := by
  induction requests using List.reverseRecOn with
  | nil => cases member
  | append_singleton requests s ih =>
    rcases mem_run_concat member with granted | ⟨earlier, elsewhere⟩
    · exact ⟨requests, s, [], rfl, .of_granted granted⟩
    · obtain ⟨before, r, rest, rfl, wrote⟩ := ih earlier
      exact ⟨before, r, rest ++ [s], by simp, wrote.concat elsewhere⟩

/-- A hold goes on with a row that has the same user and the same start. -/
theorem Began.concat {next : Lock} (began : Began terms before r rest row)
    (project : next.project = row.project) (user : next.user = row.user)
    (since : next.since = row.since) (member : next ∈ run terms [] (before ++ r :: (rest ++ [s])))
    (unlapsed : ∀ lock, Grants terms (before ++ r :: rest) s lock → lock.project = row.project →
      ∃ held, (run terms [] (before ++ r :: rest)).lock? s.now row.project = some held ∧
        held.user = row.user) :
    Began terms before r (rest ++ [s]) next := by
  refine ⟨?_, ?_, since.trans began.since, ?_, ?_⟩
  · rw [project, user]
    exact began.first
  · rw [project]
    exact began.free
  · intro between after split
    cases after using List.reverseRecOn with
    | nil =>
      obtain rfl : rest ++ [s] = between := by simpa using split
      exact ⟨next, member, rfl, rfl, rfl⟩
    | append_singleton after last =>
      have whole : rest ++ [s] = (between ++ after) ++ [last] := by simpa using split
      rw [project, user, since]
      exact began.present between after (List.append_inj' whole rfl).1
  · rw [project, user]
    exact along_concat.mpr ⟨began.unlapsed, unlapsed⟩

/-- Every row belongs to a hold that began with some request. -/
theorem exists_began (requests : List LockRequest) (member : row ∈ run terms [] requests) :
    ∃ before r rest, requests = before ++ r :: rest ∧ Began terms before r rest row := by
  induction requests using List.reverseRecOn generalizing row with
  | nil => cases member
  | append_singleton requests s ih =>
    rcases mem_run_concat member with granted | ⟨earlier, elsewhere⟩
    · obtain ⟨-, -, minutes?, got⟩ := acquired_of_granted granted
      cases found : (run terms [] requests).lock? s.now row.project with
      | none =>
        have since : row.since = s.now := by rw [got.since, found]; rfl
        refine ⟨requests, s, [], rfl, ⟨row, granted, rfl, rfl⟩, found, since, ?_, along_nil⟩
        intro between after split
        obtain ⟨rfl, rfl⟩ := List.append_eq_nil_iff.mp split.symm
        exact ⟨row, member, rfl, rfl, rfl⟩
      | some held =>
        obtain ⟨inside, named, -⟩ := lock?_eq_some found
        have own : held.user = row.user := got.unopposed held found
        have since : row.since = held.since := by rw [got.since, found]; rfl
        obtain ⟨before, r, rest, rfl, began⟩ := ih inside
        refine ⟨before, r, rest ++ [s], by simp, began.concat named.symm own.symm since ?_ ?_⟩
        · simpa using member
        · rw [named]
          exact fun lock _ _ => ⟨held, found, rfl⟩
    · obtain ⟨before, r, rest, rfl, began⟩ := ih earlier
      refine ⟨before, r, rest ++ [s], by simp, began.concat rfl rfl rfl ?_ ?_⟩
      · simpa using member
      · exact fun lock granted same => absurd same (elsewhere lock granted)

/-- What holds of a lock table after requests, and of whatever it is asked next. -/
structure Safe (terms : LockTerms) (requests : List LockRequest) : Prop where
  single : (run terms [] requests).OneEach
  asked : ∀ r lock, Grants terms requests r lock →
    r.call.user? = some lock.user ∧ r.call.project? = some lock.project
  unopposed : ∀ r lock, Grants terms requests r lock → ∀ row ∈ run terms [] requests,
    row.project = lock.project → row.isExpired r.now = false → row.user = lock.user
  refused : ∀ r e, ((run terms [] requests).serve terms r).2 = .refused e →
    run terms [] (requests ++ [r]) = run terms [] requests
  kept : ∀ r, ∀ row ∈ run terms [] requests, row.isExpired r.now = false →
    r.call.user? ≠ some row.user → row ∈ run terms [] (requests ++ [r])
  written : ∀ row ∈ run terms [] requests,
    ∃ before r rest, requests = before ++ r :: rest ∧ Wrote terms before r rest row
  held : ∀ row ∈ run terms [] requests,
    ∃ before r rest, requests = before ++ r :: rest ∧ Began terms before r rest row
  found : ∀ r lock, Grants terms requests r lock →
    lock ∈ run terms [] (requests ++ [r]) ∧ r.now < lock.expires ∧
    ∀ later, later < lock.expires →
      (run terms [] (requests ++ [r])).serve terms (.at later (.look lock.project)) =
        (run terms [] (requests ++ [r]), .found (some lock))

/-- Every run of calls is safe. -/
theorem run_safe (terms : LockTerms) (requests : List LockRequest) : Safe terms requests where
  single := oneEach_run terms requests
  asked r lock granted := by
    obtain ⟨user, project, -⟩ := acquired_of_granted granted
    exact ⟨user, project⟩
  unopposed r lock granted row member named live := by
    obtain ⟨-, -, minutes?, got⟩ := acquired_of_granted granted
    have found := (oneEach_run terms requests).lock? member live
    rw [named] at found
    exact got.unopposed row found
  refused r e answered := by
    have served := serve_serves terms (run terms [] requests) r
    rw [answered] at served
    rw [run_concat]
    generalize ((run terms [] requests).serve terms r).1 = after at served ⊢
    cases served with
    | refused e => rfl
  kept r row member live foreign := by
    rw [run_concat]
    exact serve_keeps (oneEach_run terms requests) member live foreign
  written row member := exists_wrote requests member
  held row member := exists_began requests member
  found r lock granted := by
    obtain ⟨-, -, minutes?, got⟩ := acquired_of_granted granted
    have member : lock ∈ run terms [] (requests ++ [r]) := by
      rw [run_concat]
      exact got.present
    refine ⟨member, got.lasts.1, fun later early => ?_⟩
    have found := (oneEach_run terms (requests ++ [r])).lock? member
      (Lock.isExpired_eq_false_iff.mpr early)
    simp only [serve, LockRequest.at, found]

end Schemata.LockTable
