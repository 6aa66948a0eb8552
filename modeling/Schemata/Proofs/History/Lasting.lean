import Schemata.Proofs.History.Written

/-! Versions that last. A stored version is found under its identifier as it was stored, whatever is
asked of the archive, until its project is deleted; and while a scope has versions, no other scope
is in its way. -/

namespace Schemata

namespace VersionStore

variable {store : VersionStore} {scope : Scope} {version row : Version}

/-! ### Scopes in the way of each other -/

theorem Clashes.symm {a b : Scope} (clash : Clashes a b) : Clashes b a :=
  ⟨clash.1.symm, clash.2.symm⟩

/-- Active versions whose scopes clash are of one scope. -/
def Apart (store : VersionStore) : Prop :=
  ∀ a ∈ store.rows, ∀ b ∈ store.rows, a.active = true → b.active = true → Clashes a.scope b.scope →
    a.scope = b.scope

theorem empty_apart : empty.Apart := by
  intro a member
  cases member

theorem mem_retire_active (member : row ∈ retire scope store.rows) (live : row.active = true) :
    row ∈ store.rows ∧ row.scope ≠ scope := by
  obtain ⟨old, inside, rfl⟩ := List.mem_map.mp member
  by_cases own : old.scope = scope
  · rw [if_pos own] at live
    cases live
  · rw [if_neg own]
    exact ⟨inside, own⟩

namespace Apart

private theorem grow (apart : store.Apart) (own : version.scope = scope)
    (free : store.isBlocked scope = false) :
    (store.grown scope version).Apart := by
  have clear : ∀ row ∈ retire scope store.rows, row.active = true →
      ¬ Clashes row.scope version.scope := by
    intro row member live clash
    obtain ⟨inside, differs⟩ := mem_retire_active member live
    have unblocked := List.any_eq_false.mp free row inside
    rw [own] at clash
    simp [live, differs, clash] at unblocked
  intro a left b right aLive bLive clash
  rcases List.mem_append.mp left with aOld | aNew
  · rcases List.mem_append.mp right with bOld | bNew
    · exact apart a (mem_retire_active aOld aLive).1 b (mem_retire_active bOld bLive).1
        aLive bLive clash
    · rw [List.mem_singleton.mp bNew] at clash
      exact absurd clash (clear a aOld aLive)
  · rw [List.mem_singleton.mp aNew] at clash ⊢
    rcases List.mem_append.mp right with bOld | bNew
    · exact absurd clash.symm (clear b bOld bLive)
    · rw [List.mem_singleton.mp bNew]

theorem create (apart : store.Apart) (limits : Limits) (now : Instant) (candidate : Candidate)
    (scope : Scope) (description : String) :
    (VersionStore.create limits now store candidate scope description).1.Apart := by
  rcases create_cases limits now store candidate scope description with
    ⟨issued, problem, -, made⟩ | ⟨version, -, own, -, -, made⟩
  · rw [made]
    exact apart
  · obtain ⟨schema, admitted, -⟩ := exists_admitted (congrArg Prod.snd made)
    rw [made]
    exact apart.grow own admitted.free

private theorem delete (apart : store.Apart) (project? : Option String) :
    (store.deleteProject project?).1.Apart :=
  fun a left b right => apart a (List.mem_filter.mp left).1 b (List.mem_filter.mp right).1

theorem free (apart : store.Apart) (orderly : store.Orderly) (member : row ∈ store.rows) :
    store.isBlocked row.scope = false := by
  have versions : store.ofScope row.scope ≠ [] := List.ne_nil_of_mem (mem_ofScope.mpr ⟨member, rfl⟩)
  obtain ⟨newest, inside, -, -, only⟩ := (orderly.numbered row.scope).exists_newest versions
  obtain ⟨present, own⟩ := mem_ofScope.mp inside
  have live : newest.active = true := (only newest inside).mpr rfl
  refine List.any_eq_false.mpr fun other there blocking => ?_
  simp only [Bool.and_eq_true, bne_iff_ne, decide_eq_true_eq] at blocking
  obtain ⟨⟨otherLive, differs⟩, clash⟩ := blocking
  rw [← own] at differs clash
  exact differs (apart other there newest present otherLive live clash)

end Apart

/-! ### Versions that stay -/

/-- A version is in the store; it may have been retired. -/
def Holds (store : VersionStore) (version : Version) : Prop :=
  ∃ active, { version with active } ∈ store.rows

theorem Holds.version_eq (holds : store.Holds version) (orderly : store.Orderly) :
    ∃ active, store.version version.id = .ok { version with active } := by
  obtain ⟨active, member⟩ := holds
  have found : store.version? version.id = some { version with active } :=
    (Keyed.find?_eq_some_iff orderly.distinct).mpr ⟨member, rfl⟩
  exact ⟨active, by rw [VersionStore.version, found]⟩

theorem holds_grown : (store.grown scope version).Holds version.settled :=
  ⟨version.active, List.mem_append_right _ (List.mem_singleton_self _)⟩

theorem Holds.grow {next : Version} (holds : store.Holds version) (scope : Scope) :
    (store.grown scope next).Holds version := by
  obtain ⟨active, member⟩ := holds
  have kept := List.mem_map_of_mem
    (f := fun row : Version => if row.scope = scope then { row with active := false }
      else row) member
  by_cases own : version.scope = scope
  · rw [if_pos own] at kept
    exact ⟨false, List.mem_append_left _ kept⟩
  · rw [if_neg own] at kept
    exact ⟨active, List.mem_append_left _ kept⟩

theorem Holds.create (holds : store.Holds version) (limits : Limits) (now : Instant)
    (candidate : Candidate) (scope : Scope) (description : String) :
    (VersionStore.create limits now store candidate scope description).1.Holds version := by
  rcases create_cases limits now store candidate scope description with
    ⟨issued, problem, -, made⟩ | ⟨next, -, -, -, -, made⟩
  · rw [made]
    exact holds
  · rw [made]
    exact holds.grow scope

theorem Holds.delete (holds : store.Holds version) (spared : version.scope.project? ≠ project?) :
    (store.deleteProject project?).1.Holds version := by
  obtain ⟨active, member⟩ := holds
  exact ⟨active, List.mem_filter.mpr ⟨member, bne_iff_ne.mpr spared⟩⟩

end VersionStore

namespace Archive

variable {archive : Archive} {version : Version} {request : Request} {requests : List Request}

theorem run_apart (apart : archive.versions.Apart) (requests : List Request) :
    (archive.run requests).versions.Apart :=
  run_induction apart
    (fun _ limits now candidate scope description kept =>
      kept.create limits now candidate scope description)
    fun _ project? _ kept => kept.delete project?

/-- Only the deletion of its project removes a version. -/
theorem run_holds (holds : archive.versions.Holds version)
    (spared : ∀ request ∈ requests, request ≠ .deleteProject version.scope.project?) :
    (archive.run requests).versions.Holds version :=
  run_induction (motive := (·.Holds version)) holds
    (fun _ limits now candidate scope description kept =>
      kept.create limits now candidate scope description)
    fun _ _ member kept => kept.delete fun same => spared _ member (same ▸ rfl)

end Archive

end Schemata
