import Mathlib.Data.List.Nodup
import Mathlib.Data.List.Range
import Schemata.History.Version

/-! The order that a version store keeps: in every scope the revisions count from one and the newest
version alone is active, and identifiers are never given out twice. -/

namespace Schemata

/-- The identifier that is given out under a number. -/
def versionId (number : Nat) : String := s!"v{number}"

theorem versionId_inj (same : versionId first = versionId second) : first = second := by
  have digits : Nat.toDigits 10 first = Nat.toDigits 10 second := by
    simpa [versionId] using congrArg String.toList same
  rw [← Nat.ofDigitChars_ten_toDigits (n := first), digits, Nat.ofDigitChars_ten_toDigits]

/-- The versions of one scope, the oldest first: numbered from one, the last one alone active. -/
structure Numbered (rows : List Version) : Prop where
  revisions : rows.map (·.revision) = List.range' 1 rows.length
  active : ∀ row ∈ rows, row.active = true ↔ row.revision = rows.length

namespace VersionStore

/-- Every scope is numbered, and every row has an identifier of its own that was given out. -/
structure Orderly (store : VersionStore) : Prop where
  numbered : ∀ scope, Numbered (store.ofScope scope)
  issued : ∀ row ∈ store.rows, ∃ number ≤ store.issued, row.id = versionId number
  distinct : (store.rows.map (·.id)).Nodup

theorem empty_orderly : empty.Orderly where
  numbered _ := ⟨rfl, by simp [ofScope, empty]⟩
  issued := by simp [empty]
  distinct := by simp [empty]

end VersionStore

/-! ### One scope -/

private theorem foldl_max_range' (n : Nat) : (List.range' 1 n).foldl max 0 = n := by
  induction n with
  | zero => rfl
  | succ n ih =>
    rw [List.range'_1_concat, List.foldl_append, ih]
    simp [Nat.add_comm]

namespace Numbered

variable {rows : List Version}

/-- A numbered scope grows by an active version under the next number when all others are
retired. -/
theorem grow (numbered : Numbered rows) (next : version.revision = rows.length + 1)
    (live : version.active = true) :
    Numbered ((rows.map fun row => { row with active := false }) ++ [version]) where
  revisions := by
    simp only [List.map_append, List.map_map, Function.comp_def, numbered.revisions, List.map_cons,
      List.map_nil, List.length_append, List.length_map, List.length_singleton,
        List.range'_1_concat,
      next, Nat.add_comm]
  active := by
    intro row member
    have bounded : ∀ old ∈ rows, old.revision ≤ rows.length := by
      intro old inside
      have listed := List.mem_map_of_mem (f := Version.revision) inside
      rw [numbered.revisions, List.mem_range'_1] at listed
      omega
    rcases List.mem_append.mp member with old | new
    · obtain ⟨row, inside, rfl⟩ := List.mem_map.mp old
      have := bounded row inside
      simp
      omega
    · obtain rfl := List.mem_singleton.mp new
      simp [live, next]

private theorem distinct (numbered : Numbered rows) : (rows.map (·.revision)).Nodup :=
  numbered.revisions ▸ List.nodup_range'

/-- In a scope with versions the one of the highest revision is the active one, and no other is. -/
theorem exists_newest (numbered : Numbered rows) (some : rows ≠ []) :
    ∃ row ∈ rows, row.revision = rows.length ∧ rows.find? (·.active) = .some row ∧
      ∀ other ∈ rows, other.active = true ↔ other = row := by
  have last : rows.length ∈ rows.map (·.revision) := by
    rw [numbered.revisions, List.mem_range'_1]
    have := List.length_pos_iff.mpr some
    omega
  obtain ⟨row, member, revision⟩ := List.mem_map.mp last
  have live := (numbered.active row member).mpr revision
  have only : ∀ other ∈ rows, other.active = true → other = row := by
    intro other inside active
    have same := (numbered.active other inside).mp active
    exact List.inj_on_of_nodup_map numbered.distinct inside member (same.trans revision.symm)
  refine ⟨row, member, revision, ?_, fun other inside =>
    ⟨only other inside, fun same => same ▸ live⟩⟩
  cases found : rows.find? (·.active) with
  | none => exact absurd live (by simpa using List.find?_eq_none.mp found row member)
  | some other => rw [only other (List.mem_of_find?_eq_some found) (List.find?_some found)]

theorem take_reverse (numbered : Numbered rows) (limit : Nat) :
    (rows.reverse.take limit).map (·.revision) =
      (List.range (min limit rows.length)).map fun i => rows.length - i := by
  rw [List.map_take, List.map_reverse, numbered.revisions, List.reverse_range', ← List.map_take,
    List.take_range]
  exact List.map_congr_left fun i _ => by omega

end Numbered

/-! ### Storing and deleting -/

namespace VersionStore

variable {store : VersionStore} {scope other : Scope} {version : Version}

theorem mem_ofScope : row ∈ store.ofScope scope ↔ row ∈ store.rows ∧ row.scope = scope := by
  simp [ofScope]

theorem nextRevision_eq (numbered : Numbered (store.ofScope scope)) :
    store.nextRevision scope = (store.ofScope scope).length + 1 := by
  rw [nextRevision, numbered.revisions, foldl_max_range']

/-- The store after a version of a scope came in. -/
def grown (store : VersionStore) (scope : Scope) (version : Version) : VersionStore :=
  ⟨retire scope store.rows ++ [version.settled], store.issued + 1⟩

/-- Storing either leaves all rows as they are or adds an active version under a new identifier and
the next revision. -/
theorem create_cases (limits : Limits) (now : Instant) (store : VersionStore)
    (candidate : Candidate) (scope : Scope) (description : String) :
    (∃ issued problem, store.issued ≤ issued ∧
      create limits now store candidate scope description =
        (⟨store.rows, issued⟩, .error problem)) ∨
    (∃ version : Version, version.id = versionId (store.issued + 1) ∧ version.scope = scope ∧
      version.revision = store.nextRevision scope ∧ version.active = true ∧
      create limits now store candidate scope description =
        (store.grown scope version, .ok version)) := by
  simp only [create, insert]
  split
  · exact .inl ⟨store.issued, _, Nat.le_refl _, rfl⟩
  · split
    · exact .inl ⟨_, _, Nat.le_succ _, rfl⟩
    · split
      · exact .inl ⟨_, _, Nat.le_succ _, rfl⟩
      · exact .inr ⟨_, rfl, rfl, rfl, rfl, rfl⟩

theorem filter_retire (rows : List Version) (other : Scope) :
    (retire scope rows).filter (fun row => row.scope == other) =
      retire scope (rows.filter fun row => row.scope == other) := by
  rw [retire, List.filter_map, retire]
  congr 1
  refine List.filter_congr fun row _ => ?_
  rw [Function.comp_apply]
  split <;> rfl

theorem ofScope_grown_self (own : version.scope = scope) :
    (store.grown scope version).ofScope scope =
      (store.ofScope scope).map (fun row => { row with active := false }) ++ [version.settled] := by
  have retired : retire scope (store.ofScope scope) =
      (store.ofScope scope).map fun row => { row with active := false } :=
    List.map_congr_left fun row member => if_pos (mem_ofScope.mp member).2
  rw [← retired, ofScope, ofScope, grown, List.filter_append, filter_retire]
  simp [own]

theorem ofScope_grown_other (own : version.scope = scope) (differs : other ≠ scope) :
    (store.grown scope version).ofScope other = store.ofScope other := by
  have untouched : retire scope (store.ofScope other) = store.ofScope other := by
    refine (List.map_congr_left fun row member => ?_).trans (List.map_id _)
    exact if_neg ((mem_ofScope.mp member).2 ▸ differs)
  rw [ofScope] at untouched
  rw [ofScope, ofScope, grown, List.filter_append, filter_retire, untouched]
  simp [own, differs.symm]

private theorem ofScope_deleteProject (project? : Option String) (scope : Scope) :
    (store.deleteProject project?).1.ofScope scope =
      if scope.project? = project? then [] else store.ofScope scope := by
  simp only [ofScope, deleteProject, List.filter_filter]
  split
  · rename_i gone
    refine List.filter_eq_nil_iff.mpr fun row _ kept => ?_
    simp only [Bool.and_eq_true, beq_iff_eq, bne_iff_ne] at kept
    exact kept.2 (kept.1 ▸ gone)
  · rename_i kept
    refine List.filter_congr fun row _ => ?_
    by_cases own : row.scope = scope
    · simp [own, kept]
    · simp [own]

theorem deleteProject_count (store : VersionStore) (project? : Option String) :
    (store.deleteProject project?).2 =
      (store.rows.filter fun row => row.scope.project? = project?).length := by
  have parts := List.length_eq_length_filter_add
    (l := store.rows) (fun row => decide (row.scope.project? = project?))
  have kept : (store.rows.filter fun row => row.scope.project? != project?) =
      store.rows.filter fun row => !decide (row.scope.project? = project?) :=
    List.filter_congr fun row _ => by simp [bne, beq_eq_decide]
  simp only [deleteProject, kept]
  omega

/-! ### The order is kept -/

namespace Orderly

theorem fresh (orderly : store.Orderly) (member : row ∈ store.rows) :
    row.id ≠ versionId (store.issued + 1) := by
  intro same
  obtain ⟨number, bound, known⟩ := orderly.issued row member
  have equal : number = store.issued + 1 := versionId_inj (known.symm.trans same)
  omega

theorem grow (orderly : store.Orderly) (id : version.id = versionId (store.issued + 1))
    (own : version.scope = scope) (next : version.revision = store.nextRevision scope)
    (live : version.active = true) : (store.grown scope version).Orderly where
  numbered other := by
    by_cases same : other = scope
    · subst same
      rw [ofScope_grown_self own]
      exact (orderly.numbered other).grow (next.trans (nextRevision_eq (orderly.numbered other)))
        live
    · rw [ofScope_grown_other own same]
      exact orderly.numbered other
  issued := by
    intro row member
    rcases List.mem_append.mp member with old | new
    · obtain ⟨row, inside, rfl⟩ := List.mem_map.mp old
      obtain ⟨number, bound, known⟩ := orderly.issued row inside
      exact ⟨number, Nat.le_succ_of_le bound, by split <;> exact known⟩
    · obtain rfl := List.mem_singleton.mp new
      exact ⟨store.issued + 1, Nat.le_refl _, id⟩
  distinct := by
    have ids : (retire scope store.rows).map (·.id) = store.rows.map (·.id) := by
      rw [retire, List.map_map]
      exact List.map_congr_left fun row _ => by rw [Function.comp_apply]; split <;> rfl
    rw [grown, List.map_append, ids, List.map_singleton, Version.settled_id, id, List.nodup_append]
    refine ⟨orderly.distinct, List.nodup_singleton _, ?_⟩
    rintro _ listed _ new rfl
    obtain ⟨row, inside, same⟩ := List.mem_map.mp listed
    exact orderly.fresh inside (same.trans (List.mem_singleton.mp new))

private theorem skip (orderly : store.Orderly) (more : store.issued ≤ count) :
    Orderly ⟨store.rows, count⟩ where
  numbered := orderly.numbered
  issued row member := by
    obtain ⟨number, bound, known⟩ := orderly.issued row member
    exact ⟨number, Nat.le_trans bound more, known⟩
  distinct := orderly.distinct

theorem create (orderly : store.Orderly) (limits : Limits) (now : Instant) (candidate : Candidate)
    (scope : Scope) (description : String) :
    (VersionStore.create limits now store candidate scope description).1.Orderly := by
  rcases create_cases limits now store candidate scope description with
    ⟨issued, problem, more, made⟩ | ⟨version, id, own, next, live, made⟩
  · rw [made]
    exact orderly.skip more
  · rw [made]
    exact orderly.grow id own next live

theorem delete (orderly : store.Orderly) (project? : Option String) :
    (store.deleteProject project?).1.Orderly where
  numbered scope := by
    rw [ofScope_deleteProject]
    split
    · exact ⟨rfl, by simp⟩
    · exact orderly.numbered scope
  issued row member := orderly.issued row (List.mem_filter.mp member).1
  distinct := (List.filter_sublist.map _).nodup orderly.distinct

end Orderly

/-! ### Retirement lasts -/

/-- What is active later was active before, or it came in under a new identifier. -/
structure Follows (store later : VersionStore) : Prop where
  issued : store.issued ≤ later.issued
  active : ∀ row ∈ later.rows, row.active = true →
    (∃ old ∈ store.rows, old.id = row.id ∧ old.active = true) ∨
    ∀ number ≤ store.issued, row.id ≠ versionId number

namespace Follows

theorem refl (store : VersionStore) : store.Follows store :=
  ⟨Nat.le_refl _, fun row member live => .inl ⟨row, member, rfl, live⟩⟩

theorem trans (first : Follows store middle) (second : Follows middle later) :
    Follows store later where
  issued := Nat.le_trans first.issued second.issued
  active row member live := by
    rcases second.active row member live with ⟨old, inside, same, wasLive⟩ | fresh
    · exact same ▸ first.active old inside wasLive
    · exact .inr fun number bound => fresh number (Nat.le_trans bound first.issued)

theorem create (limits : Limits) (now : Instant) (store : VersionStore) (candidate : Candidate)
    (scope : Scope) (description : String) :
    store.Follows (VersionStore.create limits now store candidate scope description).1 := by
  rcases create_cases limits now store candidate scope description with
    ⟨issued, problem, more, made⟩ | ⟨version, id, -, -, -, made⟩
  · rw [made]
    exact ⟨more, (refl store).active⟩
  · rw [made]
    refine ⟨Nat.le_succ _, fun row member live => ?_⟩
    rcases List.mem_append.mp member with kept | new
    · obtain ⟨old, inside, rfl⟩ := List.mem_map.mp kept
      split at live
      · simp at live
      · rename_i elsewhere
        exact .inl ⟨old, inside, by rw [if_neg elsewhere], live⟩
    · obtain rfl := List.mem_singleton.mp new
      refine .inr fun number bound same => ?_
      have := versionId_inj (id.symm.trans same)
      omega

theorem delete (store : VersionStore) (project? : Option String) :
    store.Follows (store.deleteProject project?).1 :=
  ⟨Nat.le_refl _, fun row member live => .inl ⟨row, (List.mem_filter.mp member).1, rfl, live⟩⟩

/-- A retired version is never active again. -/
theorem inactive (follows : Follows store later) (orderly : store.Orderly)
    (member : row ∈ store.rows) (retired : row.active = false) :
    ∀ next ∈ later.rows, next.id = row.id → next.active = false := by
  intro next inside same
  refine Bool.eq_false_iff.mpr fun live => ?_
  rcases follows.active next inside live with ⟨old, before, known, wasLive⟩ | fresh
  · have unique := List.inj_on_of_nodup_map orderly.distinct before member (known.trans same)
    rw [unique, retired] at wasLive
    exact Bool.false_ne_true wasLive
  · obtain ⟨number, bound, known⟩ := orderly.issued row member
    exact fresh number bound (same.trans known)

end Follows

end VersionStore

end Schemata
