import Schemata.Proofs.Lock.Acquisition

/-! Edit blocks, entered and left while others are open. A block gives the lock of its project away
when it is left, also when its user is inside another block; as long as that does not happen, users
keep each other out. -/

namespace Schemata

/-- What happens to the blocks of one project. -/
inductive BlockStep where
  | enter (user : String) (minutes? : Option Int)
  | leave (user : String)

/-- The locks, and the user of every open block of one project. -/
structure EditBlocks where
  locks : LockTable
  users : List String

namespace EditBlocks

variable (terms : LockTerms) (project : String)

/-- Before any block is open. -/
def closed (locks : LockTable) : EditBlocks := ⟨locks, []⟩

/-- A block that is refused is not opened, and only an open block can be left. -/
def next (blocks : EditBlocks) (now : Instant) : BlockStep → EditBlocks
  | .enter user minutes? =>
    match blocks.locks.enter terms now project user minutes? with
    | .ok (locks, _) => ⟨locks, user :: blocks.users⟩
    | .error _ => blocks
  | .leave user =>
    if user ∈ blocks.users then ⟨blocks.locks.leave project user, blocks.users.erase user⟩
    else blocks

def run (blocks : EditBlocks) (steps : List (Instant × BlockStep)) : EditBlocks :=
  steps.foldl (fun blocks step => blocks.next terms project step.1 step.2) blocks

/-- What holds before every step of a run. -/
def Throughout (holds : EditBlocks → Instant → BlockStep → Prop) :
    EditBlocks → List (Instant × BlockStep) → Prop
  | _, [] => True
  | blocks, (now, step) :: rest =>
    holds blocks now step ∧ Throughout holds (blocks.next terms project now step) rest

instance throughoutDecidable (holds : EditBlocks → Instant → BlockStep → Prop)
    [∀ blocks now step, Decidable (holds blocks now step)] :
    (blocks : EditBlocks) → (steps : List (Instant × BlockStep)) →
      Decidable (Throughout terms project holds blocks steps)
  | _, [] => isTrue trivial
  | blocks, (now, step) :: rest =>
    have := throughoutDecidable holds (blocks.next terms project now step) rest
    inferInstanceAs (Decidable (_ ∧ _))

/-- At the time of a step no lock of the project has lapsed. -/
def Unlapsed (blocks : EditBlocks) (now : Instant) (_ : BlockStep) : Prop :=
  ∀ row ∈ blocks.locks, row.project = project → row.isExpired now = false

instance (blocks : EditBlocks) (now : Instant) (step : BlockStep) :
    Decidable (Unlapsed project blocks now step) :=
  inferInstanceAs (Decidable (∀ row ∈ blocks.locks, row.project = project → _))

/-- Who leaves a block is inside no other one. -/
def LeavesLast (blocks : EditBlocks) (_ : Instant) : BlockStep → Prop
  | .enter .. => True
  | .leave user => blocks.users.count user ≤ 1

instance (blocks : EditBlocks) (now : Instant) : (step : BlockStep) →
    Decidable (LeavesLast blocks now step)
  | .enter .. => inferInstanceAs (Decidable True)
  | .leave user => inferInstanceAs (Decidable (blocks.users.count user ≤ 1))

variable {terms project} {blocks : EditBlocks} {now : Instant}

/-- Whoever is inside a block holds the project. -/
def Guarded (project : String) (blocks : EditBlocks) : Prop :=
  ∀ user ∈ blocks.users, blocks.locks.HeldBy project user

/-- Only one user can hold a project. -/
theorem Guarded.exclusive (guarded : blocks.Guarded project) (first : one ∈ blocks.users)
    (second : other ∈ blocks.users) : one = other := by
  obtain ⟨row, member, named⟩ := (guarded one first).present
  have ofOne := (guarded one first).owned row member named
  have ofOther := (guarded other second).owned row member named
  exact ofOne.symm.trans ofOther

private theorem next_enter_cases (terms : LockTerms) (project : String)
    (blocks : EditBlocks) (now : Instant) (user : String) (minutes? : Option Int) :
    (∃ after lock, LockTable.Acquired terms now blocks.locks project user minutes? after lock ∧
      blocks.next terms project now (.enter user minutes?) = ⟨after, user :: blocks.users⟩) ∨
    blocks.next terms project now (.enter user minutes?) = blocks := by
  simp only [next]
  cases entered : blocks.locks.enter terms now project user minutes? with
  | ok got => exact .inl ⟨got.1, got.2, LockTable.acquired entered, rfl⟩
  | error refused => exact .inr rfl

private theorem next_guarded (guarded : blocks.Guarded project) (step : BlockStep)
    (live : Unlapsed project blocks now step) (last : LeavesLast blocks now step) :
    (blocks.next terms project now step).Guarded project := by
  cases step with
  | enter user minutes? =>
    rcases next_enter_cases terms project blocks now user minutes? with
      ⟨after, lock, got, opened⟩ | refused
    · rw [opened]
      intro other inside
      rcases List.mem_cons.mp inside with rfl | earlier
      · exact got.heldBy
      · -- The lock of an earlier user is alive, so nobody else could have got it.
        obtain ⟨held, found, own⟩ := (guarded other earlier).lock? live
        rw [← own, got.unopposed held found]
        exact got.heldBy
    · rw [refused]
      exact guarded
  | leave user =>
    simp only [next]
    split
    · rename_i inside
      intro other remaining
      have same := guarded.exclusive (List.mem_of_mem_erase remaining) inside
      have left : 0 < (blocks.users.erase user).count user :=
        List.count_pos_iff.mpr (same ▸ remaining)
      have once : blocks.users.count user ≤ 1 := last
      rw [List.count_erase_self] at left
      omega
    · exact guarded

private theorem run_guarded {steps : List (Instant × BlockStep)} (guarded : blocks.Guarded project)
    (unlapsed : Throughout terms project (Unlapsed project) blocks steps)
    (last : Throughout terms project LeavesLast blocks steps) :
    (blocks.run terms project steps).Guarded project := by
  induction steps generalizing blocks with
  | nil => exact guarded
  | cons step rest ih =>
    obtain ⟨now, step⟩ := step
    exact ih (next_guarded guarded step unlapsed.1 last.1) unlapsed.2 last.2

/-- Bob comes too early, and again after Ada is gone. -/
def handover : List (Instant × BlockStep) :=
  [(.ofSeconds 1, .enter "ada" none), (.ofSeconds 2, .enter "bob" none),
    (.ofSeconds 3, .leave "ada"), (.ofSeconds 4, .enter "bob" none)]

/-- Nobody is inside a block while another user is, and who is inside holds the project, as long as
no lock lapses and nobody leaves one of several blocks. -/
theorem run_exclusive (terms : LockTerms) (project : String) (locks : LockTable)
    (steps : List (Instant × BlockStep))
    (unlapsed : Throughout terms project (Unlapsed project) (closed locks) steps)
    (last : Throughout terms project LeavesLast (closed locks) steps) :
    (∀ one ∈ ((closed locks).run terms project steps).users,
      ∀ other ∈ ((closed locks).run terms project steps).users, one = other) ∧
    ((closed locks).run terms project steps).Guarded project := by
  have guarded := run_guarded (fun _ inside => absurd inside List.not_mem_nil) unlapsed last
  exact ⟨fun one first other second => guarded.exclusive first second, guarded⟩

theorem handover_exclusive :
    Throughout ⟨5, 10⟩ "crm" (Unlapsed "crm") (closed []) handover ∧
    Throughout ⟨5, 10⟩ "crm" LeavesLast (closed []) handover ∧
    ((closed []).run ⟨5, 10⟩ "crm" handover).users = ["bob"] ∧
    ((closed []).run ⟨5, 10⟩ "crm" handover).Guarded "crm" :=
  ⟨by decide, by decide, by decide,
    (run_exclusive ⟨5, 10⟩ "crm" [] handover (by decide) (by decide)).2⟩

/-- A user inside two blocks who leaves one of them lets anybody else in. -/
theorem leave_admits_other (guarded : blocks.Guarded project) (nested : 2 ≤ blocks.users.count user)
    (granted : leastLockMinutes ≤ minutes?.getD terms.usual ∧
      minutes?.getD terms.usual ≤ terms.longest) (other : String) (later : Instant) :
    user ∈ (blocks.run terms project [(now, .leave user), (later, .enter other minutes?)]).users ∧
      other ∈ (blocks.run terms project [(now, .leave user),
        (later, .enter other minutes?)]).users := by
  have inside : user ∈ blocks.users := List.count_pos_iff.mp (by omega)
  have left : blocks.next terms project now (.leave user) =
      ⟨blocks.locks.others project, blocks.users.erase user⟩ := by
    rw [next, if_pos inside, (guarded user inside).leave]
  have remaining : user ∈ blocks.users.erase user := by
    refine List.count_pos_iff.mp ?_
    rw [List.count_erase_self]
    omega
  have free := blocks.locks.lock?_others later project
  obtain ⟨got, entered⟩ := LockTable.exists_acquired later
    (blocks.locks.others project) project other
    granted (by simp [free])
  have opened : blocks.run terms project [(now, .leave user), (later, .enter other minutes?)] =
      ⟨got.1, other :: blocks.users.erase user⟩ := by
    rw [run, List.foldl_cons, left, List.foldl_cons, List.foldl_nil, next, LockTable.enter, entered]
  rw [opened]
  exact ⟨List.mem_cons_of_mem _ remaining, List.mem_cons_self ..⟩

/-- Blocks of different users do not keep each other out: after the inner one of two nested blocks
another user gets in. -/
theorem not_exclusive : ¬ ∀ terms project locks steps,
    Throughout terms project (Unlapsed project) (closed locks) steps →
    ∀ one ∈ ((closed locks).run terms project steps).users,
      ∀ other ∈ ((closed locks).run terms project steps).users, one = other := by
  intro exclusive
  have same := exclusive ⟨5, 10⟩ "crm" []
    [(.ofSeconds 1, .enter "ada" none), (.ofSeconds 1, .enter "ada" none),
      (.ofSeconds 1, .leave "ada"), (.ofSeconds 1, .enter "bob" none)]
    (by decide) "ada" (by decide) "bob" (by decide)
  exact absurd same (by decide)

end EditBlocks

end Schemata
