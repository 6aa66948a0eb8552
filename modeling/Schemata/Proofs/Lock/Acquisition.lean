import Schemata.Lock.Table

/-! What it takes to get the lock of a project and what changes with it: nobody else has it, all
rows of the project become one new lock of the user, and the locks of other projects stay as they
are. -/

namespace Schemata

variable {terms : LockTerms} {now : Instant} {table after : LockTable} {project user : String}
  {minutes? : Option Int} {lock : Lock}

namespace LockTable

theorem mem_others : row ∈ table.others project ↔ row ∈ table ∧ row.project ≠ project := by
  simp [others]

theorem lock?_eq_some (found : table.lock? now project = some lock) :
    lock ∈ table ∧ lock.project = project ∧ lock.isExpired now = false := by
  obtain ⟨first, live⟩ := Option.filter_eq_some_iff.mp found
  exact ⟨List.mem_of_find?_eq_some first, by simpa using List.find?_some first, by simpa using live⟩

private theorem others_map (table : LockTable) (own : lock.project = project) :
    LockTable.others (table.map fun row => if row.project = project then lock else row) project =
      table.others project := by
  have kept : ∀ row : Lock, ((if row.project = project then lock else row).project != project) =
      (row.project != project) := by
    intro row
    split
    · rename_i same
      rw [own, same]
    · rfl
  rw [others, List.filter_map, others]
  have rows : table.filter ((fun row => row.project != project) ∘
      fun row => if row.project = project then lock else row) =
      table.filter fun row => row.project != project :=
    List.filter_congr fun row _ => kept row
  rw [rows]
  refine (List.map_congr_left fun row member => ?_).trans (List.map_id _)
  exact if_neg (mem_others.mp member).2

/-- The rows of a project that a user holds: there are some, and all of them belong to the user. -/
structure HeldBy (table : LockTable) (project user : String) : Prop where
  present : ∃ row ∈ table, row.project = project
  owned : ∀ row ∈ table, row.project = project → row.user = user

theorem HeldBy.lock? (held : table.HeldBy project user)
    (live : ∀ row ∈ table, row.project = project → row.isExpired now = false) :
    ∃ lock, table.lock? now project = some lock ∧ lock.user = user := by
  obtain ⟨row, member, named⟩ := held.present
  cases found : table.find? fun row => row.project == project with
  | none => exact absurd named (by simpa using List.find?_eq_none.mp found row member)
  | some lock =>
    have inside := List.mem_of_find?_eq_some found
    have own : lock.project = project := by simpa using List.find?_some found
    refine ⟨lock, ?_, held.owned lock inside own⟩
    rw [LockTable.lock?, found, Option.filter_some, if_pos (by simp [live lock inside own])]

/-- What holds after a user got the lock of a project. -/
structure Acquired (terms : LockTerms) (now : Instant) (table : LockTable) (project user : String)
    (minutes? : Option Int) (after : LockTable) (lock : Lock) : Prop where
  granted : leastLockMinutes ≤ minutes?.getD terms.usual ∧ minutes?.getD terms.usual ≤ terms.longest
  unopposed : ∀ other, table.lock? now project = some other → other.user = user
  ofProject : lock.project = project
  ofUser : lock.user = user
  since : lock.since = ((table.lock? now project).map (·.since)).getD now
  expires : lock.expires = now.plusMinutes (minutes?.getD terms.usual)
  present : lock ∈ after
  only : ∀ row ∈ after, row.project = project → row = lock
  others : after.others project = table.others project

theorem acquired (made : table.acquire terms now project user minutes? = .ok (after, lock)) :
    Acquired terms now table project user minutes? after lock := by
  unfold acquire at made
  simp only at made
  split at made
  · cases made
  rename_i bounds
  have granted : leastLockMinutes ≤ minutes?.getD terms.usual ∧
      minutes?.getD terms.usual ≤ terms.longest := by omega
  cases found : table.lock? now project with
  | none =>
    rw [found] at made
    obtain ⟨rfl, rfl⟩ := Prod.mk.inj (Except.ok.inj made)
    refine ⟨granted, by simp [found], rfl, rfl, by simp [found], rfl, by simp, ?_, by simp [others]⟩
    intro row member named
    rcases List.mem_append.mp member with old | new
    · exact absurd named (mem_others.mp old).2
    · exact List.mem_singleton.mp new
  | some held =>
    rw [found] at made
    simp only at made
    split at made
    · cases made
    rename_i own
    obtain ⟨inside, named, -⟩ := lock?_eq_some found
    obtain ⟨rfl, rfl⟩ := Prod.mk.inj (Except.ok.inj made)
    have same : held.user = user := Decidable.not_not.mp own
    refine ⟨granted, by simp [found, same], named, same, by simp [found], rfl, ?_, ?_, ?_⟩
    · exact List.mem_map.mpr ⟨held, inside, if_pos named⟩
    · rintro row member rest
      obtain ⟨old, -, rfl⟩ := List.mem_map.mp member
      split at rest
      · rename_i same
        exact if_pos same
      · rename_i differs
        exact absurd rest differs
    · exact others_map table named

/-- Within the terms the lock is given unless someone else has it. -/
theorem exists_acquired (now : Instant) (table : LockTable) (project user : String)
    (granted : leastLockMinutes ≤ minutes?.getD terms.usual ∧
      minutes?.getD terms.usual ≤ terms.longest)
    (unopposed : ∀ other, table.lock? now project = some other → other.user = user) :
    ∃ got, table.acquire terms now project user minutes? = .ok got := by
  have bounds : ¬ (minutes?.getD terms.usual < leastLockMinutes ∨
      terms.longest < minutes?.getD terms.usual) := by omega
  simp only [acquire, if_neg bounds]
  cases found : table.lock? now project with
  | none => exact ⟨_, rfl⟩
  | some held => exact ⟨_, if_neg (by simp [unopposed held found])⟩

/-- A lock is refused for its duration, or because someone else has it. -/
theorem acquire_refused {e : LockError}
    (refused : table.acquire terms now project user minutes? = .error e) :
    (¬ (leastLockMinutes ≤ minutes?.getD terms.usual ∧ minutes?.getD terms.usual ≤ terms.longest) ∧
      e = .duration terms.longest (minutes?.getD terms.usual)) ∨
    ∃ other, table.lock? now project = some other ∧ other.user ≠ user ∧ e = .held other := by
  unfold acquire at refused
  simp only at refused
  split at refused
  · rename_i bounds
    exact .inl ⟨by omega, (Except.error.inj refused).symm⟩
  cases found : table.lock? now project with
  | none =>
    rw [found] at refused
    cases refused
  | some held =>
    rw [found] at refused
    simp only at refused
    split at refused
    · rename_i foreign
      exact .inr ⟨held, rfl, foreign, (Except.error.inj refused).symm⟩
    · cases refused

namespace Acquired

theorem heldBy (got : Acquired terms now table project user minutes? after lock) :
    after.HeldBy project user where
  present := ⟨lock, got.present, got.ofProject⟩
  owned row member named := got.only row member named ▸ got.ofUser

end Acquired

theorem HeldBy.leave (held : table.HeldBy project user) :
    table.leave project user = table.others project := by
  refine List.filter_congr fun row member => ?_
  by_cases named : row.project = project
  · simp [named, held.owned row member named]
  · simp [bne, beq_eq_false_iff_ne.mpr named]

theorem lock?_others (table : LockTable) (now : Instant) (project : String) :
    (table.others project).lock? now project = none := by
  have absent : (table.others project).find? (fun row => row.project == project) = none :=
    List.find?_eq_none.mpr fun row member => by simpa using (mem_others.mp member).2
  rw [lock?, absent, Option.filter_none]

end LockTable

end Schemata
