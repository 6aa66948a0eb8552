import Schemata.Proofs.Lock.Safety

/-! How long a lock that was given is honoured. Nobody else gets the project before the end of the
lock, as long as its user neither gives it back nor sets an earlier end: acquiring a lock again
counts the minutes from that moment on, whether or not the end that was granted before lies
later. -/

namespace Schemata.LockTable

variable {terms : LockTerms} {table : LockTable} {now moment : Instant}
  {project user other : String} {minutes? : Option Int} {lock : Lock} {r ask : LockRequest}
  {before after : List LockRequest}

/-- A user has a row of a project that lasts beyond a moment. -/
def Leased (table : LockTable) (project user : String) (moment : Instant) : Prop :=
  ∃ row ∈ table, row.project = project ∧ row.user = user ∧ moment < row.expires

/-- Before the moment a lease outlasts every request, unless its user gives the lock back or sets
an end that is not behind the moment. -/
theorem Leased.serve (leased : table.Leased project user moment) (single : table.OneEach)
    (early : r.now ≤ moment) (unreleased : r.call ≠ .release project user)
    (unshortened : ∀ lock, (table.serve terms r).2 = .granted lock → lock.project = project →
      lock.user = user → moment < lock.expires) :
    (table.serve terms r).1.Leased project user moment := by
  obtain ⟨row, member, rfl, rfl, lasts⟩ := leased
  have live : row.isExpired r.now = false :=
    Lock.isExpired_eq_false_iff.mpr (Instant.lt_of_le_of_lt early lasts)
  have served := serve_serves terms table r
  generalize (table.serve terms r).1 = after, (table.serve terms r).2 = answer
    at served unshortened ⊢
  cases served with
  | @granted asker asked minutes? after lock _ _ made =>
    have got := acquired made
    by_cases named : row.project = asked
    · have own : row.user = lock.user := by
        have held := single.lock? member live
        rw [named] at held
        exact (got.unopposed row held).trans got.ofUser.symm
      have same : lock.project = row.project := got.ofProject.trans named.symm
      exact ⟨lock, got.present, same, own.symm, unshortened lock rfl same own.symm⟩
    · exact ⟨row, (got.mem_other named).mpr member, rfl, rfl, lasts⟩
  | refused e => exact ⟨row, member, rfl, rfl, lasts⟩
  | @released asked asker given had =>
    refine ⟨row, List.mem_filter.mpr ⟨member, ?_⟩, rfl, rfl, lasts⟩
    by_cases named : row.project = asked
    · have differs : row.user ≠ asker := fun own => unreleased (named ▸ own ▸ given)
      simp [differs]
    · simp [named]
  | found lock? => exact ⟨row, member, rfl, rfl, lasts⟩
  | removed count => exact ⟨row, List.mem_filter.mpr ⟨member, by simp [live]⟩, rfl, rfl, lasts⟩

/-- A lease that was given lasts over all requests before the moment. -/
theorem leased_run (granted : Grants terms before r lock) (lasts : moment < lock.expires)
    (early : ∀ s ∈ after, s.now ≤ moment)
    (unreleased : ∀ s ∈ after, s.call ≠ .release lock.project lock.user)
    (unshortened : Along (fun between s => ∀ later, Grants terms (before ++ r :: between) s later →
      later.project = lock.project → later.user = lock.user → moment < later.expires) after) :
    (run terms [] (before ++ r :: after)).Leased lock.project lock.user moment := by
  induction after using List.reverseRecOn with
  | nil =>
    obtain ⟨-, -, minutes?, got⟩ := acquired_of_granted granted
    rw [run_concat]
    exact ⟨lock, got.present, rfl, rfl, lasts⟩
  | append_singleton after s ih =>
    obtain ⟨along, last⟩ := along_concat.mp unshortened
    have leased := ih (fun s member => early s (List.mem_append_left _ member))
      (fun s member => unreleased s (List.mem_append_left _ member)) along
    have split : before ++ r :: (after ++ [s]) = (before ++ r :: after) ++ [s] := by simp
    rw [split, run_concat]
    exact leased.serve (oneEach_run terms _) (early s (by simp)) (unreleased s (by simp)) last

/-- The request of somebody else is refused as long as a lock has not lapsed. -/
theorem acquire_opposed (held : table.lock? now project = some lock) (foreign : lock.user ≠ user) :
    ∃ e, table.acquire terms now project user minutes? = .error e ∧
      (leastLockMinutes ≤ minutes?.getD terms.usual ∧ minutes?.getD terms.usual ≤ terms.longest →
        e = .held lock) := by
  cases made : table.acquire terms now project user minutes? with
  | ok got => exact absurd ((acquired made).unopposed lock held) foreign
  | error e =>
    refine ⟨e, rfl, fun granted => ?_⟩
    rcases acquire_refused made with ⟨bounds, -⟩ | ⟨row, found, -, rfl⟩
    · exact absurd granted bounds
    · rw [Option.some.inj (held.symm.trans found)]

/-- Nobody else acquires a project before the end of the lock that was given, unless the user gives
it back or is given an end in between that has passed. -/
theorem lease_honoured (terms : LockTerms) (before : List LockRequest) (r : LockRequest)
    (after : List LockRequest) (ask : LockRequest) (lock : Lock) (other : String)
    (minutes? : Option Int) (clocked : Clocked (before ++ r :: after ++ [ask]))
    (granted : Grants terms before r lock)
    (unreleased : ∀ s ∈ after, s.call ≠ .release lock.project lock.user)
    (unshortened : Along (fun between s => ∀ later, Grants terms (before ++ r :: between) s later →
      later.project = lock.project → later.user = lock.user → ask.now < later.expires) after)
    (asks : ask.call = .acquire lock.project other minutes?) (differs : other ≠ lock.user)
    (early : ask.now < lock.expires) :
    ∃ e, (run terms [] (before ++ r :: after)).serve terms ask =
        (run terms [] (before ++ r :: after), .refused e) ∧
      (leastLockMinutes ≤ minutes?.getD terms.usual ∧ minutes?.getD terms.usual ≤ terms.longest →
        ∃ row, e = .held row ∧ row.user = lock.user ∧ ask.now < row.expires) := by
  have passed : ∀ s ∈ after, s.now ≤ ask.now := by
    intro s member
    have begun : s.now ≤ ask.begun :=
      (List.pairwise_append.mp clocked.between).2.2 s (by simp [member]) ask
        (List.mem_singleton_self ask)
    exact Instant.le_trans begun (clocked.within ask (by simp))
  obtain ⟨row, member, named, own, lasts⟩ := leased_run granted early passed unreleased unshortened
  have held := (oneEach_run terms _).lock? member (Lock.isExpired_eq_false_iff.mpr lasts)
  rw [named] at held
  obtain ⟨e, refused, cause⟩ :
      ∃ e, (run terms [] (before ++ r :: after)).acquire terms ask.now lock.project other minutes? =
          .error e ∧
        (leastLockMinutes ≤ minutes?.getD terms.usual ∧ minutes?.getD terms.usual ≤ terms.longest →
          e = .held row) :=
    acquire_opposed held (own ▸ differs.symm)
  refine ⟨e, ?_, fun bounds => ⟨row, cause bounds, own, lasts⟩⟩
  simp only [LockTable.serve, asks, refused, settle]

/-- Ada acquires a project for five minutes and sets a later end, and Bob comes between the two
ends. -/
theorem lengthened_lease_honoured :
    let first := LockRequest.at (.ofSeconds 1) (.acquire "crm" "ada" none)
    let again := LockRequest.at (.ofSeconds 61) (.extend "crm" "ada" (some 10))
    let ask := LockRequest.at (.ofSeconds 300) (.acquire "crm" "bob" none)
    let lock : Lock := ⟨"crm", "ada", .ofSeconds 1, .ofSeconds 301⟩
    Grants ⟨5, 10⟩ [] first lock ∧ ask.now < lock.expires ∧
      ∃ e, (run ⟨5, 10⟩ [] [first, again]).serve ⟨5, 10⟩ ask =
        (run ⟨5, 10⟩ [] [first, again], .refused e) := by
  intro first again ask lock
  have granted : Grants ⟨5, 10⟩ [] first lock := by decide
  have unshortened : Along (fun between s => ∀ later,
      Grants ⟨5, 10⟩ ([] ++ first :: between) s later → later.project = lock.project →
        later.user = lock.user → ask.now < later.expires) ([] ++ [again]) := by
    refine along_concat.mpr ⟨along_nil, fun later given _ _ => ?_⟩
    have same : later = ⟨"crm", "ada", .ofSeconds 1, .ofSeconds 661⟩ :=
      LockAnswer.granted.inj (given.symm.trans (by decide))
    exact same ▸ by decide
  obtain ⟨e, refused, -⟩ := lease_honoured ⟨5, 10⟩ [] first [again] ask lock "bob" none
    ⟨by decide, by decide⟩ granted (by decide) unshortened rfl (by decide) (by decide)
  exact ⟨granted, by decide, e, refused⟩

/-- Whatever end a user was granted, acquiring the lock again for fewer minutes lets anybody in
after these. -/
theorem reacquire_admits_other (held : table.lock? now project = some lock) (own : lock.user = user)
    (granted : leastLockMinutes ≤ minutes ∧ minutes ≤ terms.longest) (later : Instant)
    (passed : now.plusMinutes minutes ≤ later)
    (admissible : leastLockMinutes ≤ minutes?.getD terms.usual ∧
      minutes?.getD terms.usual ≤ terms.longest) (other : String) :
    ∃ after renewed, table.acquire terms now project user (some minutes) = .ok (after, renewed) ∧
      renewed.since = lock.since ∧ renewed.expires = now.plusMinutes minutes ∧
      ∃ got, after.acquire terms later project other minutes? = .ok got := by
  have bounds : leastLockMinutes ≤ (some minutes).getD terms.usual ∧
      (some minutes).getD terms.usual ≤ terms.longest := granted
  obtain ⟨⟨after, renewed⟩, made⟩ := exists_acquired now table project user bounds
    fun row found => Option.some.inj (held.symm.trans found) ▸ own
  have got := acquired made
  have since : renewed.since = lock.since := by rw [got.since, held]; rfl
  refine ⟨after, renewed, made, since, got.expires, exists_acquired later after project other
    admissible fun row found => ?_⟩
  obtain ⟨member, named, live⟩ := lock?_eq_some found
  rw [got.only row member named, Lock.isExpired_eq_false_iff, got.expires] at live
  exact absurd passed (Int.not_le.mpr live)

/-- The end of a lock that was given is not always honoured: Ada sets an earlier end for her lock by
acquiring it again, and Bob gets the project between the two ends. -/
theorem lease_not_honoured : ¬ ∀ terms before r after ask lock other minutes?,
    Clocked (before ++ r :: after ++ [ask]) → Grants terms before r lock →
    (∀ s ∈ after, s.call ≠ .release lock.project lock.user) →
    ask.call = .acquire lock.project other minutes? → other ≠ lock.user → ask.now < lock.expires →
    ∃ e, ((run terms [] (before ++ r :: after)).serve terms ask).2 = .refused e := by
  intro honoured
  obtain ⟨e, refused⟩ := honoured ⟨5, 10⟩ []
    (.at (.ofSeconds 1) (.acquire "crm" "ada" (some 10)))
    [.at (.ofSeconds 2) (.acquire "crm" "ada" (some 1))]
    (.at (.ofSeconds 123) (.acquire "crm" "bob" none))
    ⟨"crm", "ada", .ofSeconds 1, .ofSeconds 601⟩ "bob" none
    ⟨by decide, by decide⟩ (by decide) (by decide) rfl (by decide) (by decide)
  have given :
      ((run ⟨5, 10⟩ [] ([] ++ LockRequest.at (.ofSeconds 1) (.acquire "crm" "ada" (some 10)) ::
      [.at (.ofSeconds 2) (.acquire "crm" "ada" (some 1))])).serve ⟨5, 10⟩
      (.at (.ofSeconds 123) (.acquire "crm" "bob" none))).2 =
      .granted ⟨"crm", "bob", .ofSeconds 123, .ofSeconds 423⟩ := by decide
  rw [given] at refused
  cases refused

end Schemata.LockTable
