import Schemata.Proofs.History.Archive
import Schemata.Proofs.Rules.Sound

/-! What is stored. A schema that passes the rules and can be written out is stored as the active
version of its scope, unless another scope is in the way, as none is in a named project; so schemas
in a store can always be written out again. -/

namespace Schemata

theorem Hints.settled_isWritable {hints : Hints} (writable : hints.isWritable = true) :
    hints.settled.isWritable = true := by
  simp only [isWritable, settled, Bool.and_eq_true, List.all_eq_true] at writable ⊢
  exact ⟨writable.1, fun extra kept => writable.2 extra (List.mem_filter.mp kept).1⟩

theorem Schema.settled_isWritable {schema : Schema} (writable : schema.isWritable = true) :
    schema.settled.isWritable = true := by
  simp only [isWritable, settled, List.all_eq_true, List.forall_mem_map] at writable ⊢
  exact fun table member => Hints.settled_isWritable (writable table member)

/-- What is read back of a schema is written out as the schema itself. -/
theorem Schema.payload_settled (schema : Schema) : schema.settled.payload = schema.payload := by
  have tables : schema.settled.tables.map (Table.toJson .omitted) =
      schema.tables.map (Table.toJson .omitted) := by
    rw [settled, List.map_map]
    refine List.map_congr_left fun table _ => ?_
    simp [Table.settled, Table.toJson, Hints.toJson, Hints.settled, Vacant.extras,
      List.filter_filter]
  rw [payload, payload, toJson, toJson, members, members, tables]
  rfl

namespace VersionStore

variable {store : VersionStore} {limits : Limits} {now : Instant} {candidate : Candidate}
  {scope : Scope} {schema : Schema} {description : String} {version : Version}

/-- The version that a schema becomes when it is stored, as it is given back. -/
def next (store : VersionStore) (now : Instant) (scope : Scope) (schema : Schema)
    (description : String) :
    Version where
  id := versionId (store.issued + 1)
  scope := scope
  revision := store.nextRevision scope
  snapshot := schema
  description := description
  created := now
  active := true

/-- What it takes to be stored: the candidate passes the rules, its schema can be written out, and
no other scope is in the way. -/
structure Admitted (limits : Limits) (store : VersionStore) (candidate : Candidate) (scope : Scope)
    (schema : Schema) : Prop where
  accepted : (validate candidate limits).accepted? = some schema
  writable : schema.isWritable = true
  free : store.isBlocked scope = false

theorem Admitted.create_eq (admitted : Admitted limits store candidate scope schema) (now : Instant)
    (description : String) :
    create limits now store candidate scope description =
      (store.grown scope (store.next now scope schema description),
        .ok (store.next now scope schema description)) := by
  simp only [create, admitted.accepted, insert, admitted.writable, admitted.free]
  rfl

/-- Why an accepted schema is not stored. -/
inductive Hindered (store : VersionStore) (scope : Scope) (schema : Schema) : Problem → Prop where
  | unwritable (buried : schema.isWritable = false) : Hindered store scope schema .tooDeep
  | blocked (writable : schema.isWritable = true) (taken : store.isBlocked scope = true) :
      Hindered store scope schema (.failure (blockage scope))

theorem Hindered.create_eq {problem : Problem} (hindered : store.Hindered scope schema problem)
    (accepted : (validate candidate limits).accepted? = some schema) (now : Instant)
    (description : String) :
    create limits now store candidate scope description =
      (⟨store.rows, store.issued + 1⟩, .error problem) := by
  cases hindered with
  | unwritable buried =>
    simp only [create, accepted, insert, buried]
    rfl
  | blocked writable taken =>
    simp only [create, accepted, insert, writable, taken]
    rfl

theorem admitted_or_hindered (store : VersionStore) (scope : Scope)
    (accepted : (validate candidate limits).accepted? = some schema) :
    Admitted limits store candidate scope schema ∨
      ∃ problem, store.Hindered scope schema problem := by
  cases writable : schema.isWritable with
  | false => exact .inr ⟨_, .unwritable writable⟩
  | true =>
    cases free : store.isBlocked scope with
    | false => exact .inl ⟨accepted, writable, free⟩
    | true => exact .inr ⟨_, .blocked writable free⟩

theorem exists_admitted (made : (create limits now store candidate scope description).2 =
    .ok version) :
    ∃ schema, Admitted limits store candidate scope schema ∧
      version = store.next now scope schema description := by
  cases accepted : (validate candidate limits).accepted? with
  | none =>
    simp only [create, accepted] at made
    cases made
  | some schema =>
    rcases admitted_or_hindered store scope accepted with admitted | ⟨problem, hindered⟩
    · rw [admitted.create_eq] at made
      exact ⟨schema, admitted, (Except.ok.inj made).symm⟩
    · rw [hindered.create_eq accepted] at made
      cases made

private theorem eq_of_clashes {other : Scope} (named : scope.project? = some project)
    (nonempty : project ≠ "") (clash : Clashes other scope) : other = scope := by
  obtain ⟨user, projects⟩ := clash
  rw [named, Option.getD_some] at projects
  have same : other.project? = some project := by
    cases given : other.project? with
    | none =>
      rw [given] at projects
      exact absurd projects.symm nonempty
    | some name =>
      rw [given] at projects
      exact congrArg some projects
  exact congrArg₂ Scope.mk (same.trans named.symm) user

theorem isBlocked_named (named : scope.project? = some project) (nonempty : project ≠ "") :
    store.isBlocked scope = false := by
  refine List.any_eq_false.mpr fun row _ blocking => ?_
  simp only [Bool.and_eq_true, bne_iff_ne, decide_eq_true_eq] at blocking
  obtain ⟨⟨-, differs⟩, clash⟩ := blocking
  exact differs (eq_of_clashes named nonempty clash)

theorem active?_grown (own : version.scope = scope) (live : version.active = true) :
    (store.grown scope version).active? scope = some version.settled := by
  have retired :
      ((store.ofScope scope).map fun row => { row with active := false }).find? (·.active) =
      none := by
    simp
  rw [active?, ofScope_grown_self own, List.find?_append, retired, Option.none_or]
  simp [live]

/-- Every stored schema can be written out. -/
def Written (store : VersionStore) : Prop := ∀ row ∈ store.rows, row.snapshot.isWritable = true

theorem empty_written : empty.Written := by
  intro row member
  cases member

namespace Written

theorem active? (written : store.Written) (found : store.active? scope = some version) :
    version.snapshot.isWritable = true :=
  written version (mem_ofScope.mp (List.mem_of_find?_eq_some found)).1

theorem grow (written : store.Written) (writable : version.snapshot.isWritable = true) :
    (store.grown scope version).Written := by
  intro row member
  rcases List.mem_append.mp member with old | new
  · obtain ⟨row, inside, rfl⟩ := List.mem_map.mp old
    split <;> exact written row inside
  · obtain rfl := List.mem_singleton.mp new
    exact Schema.settled_isWritable writable

theorem create (written : store.Written) (limits : Limits) (now : Instant) (candidate : Candidate)
    (scope : Scope) (description : String) :
    (VersionStore.create limits now store candidate scope description).1.Written := by
  rcases create_cases limits now store candidate scope description with
    ⟨issued, problem, -, made⟩ | ⟨version, -, -, -, -, made⟩
  · rw [made]
    exact written
  · obtain ⟨schema, admitted, rfl⟩ := exists_admitted (congrArg Prod.snd made)
    rw [made]
    exact written.grow admitted.writable

private theorem delete (written : store.Written) (project? : Option String) :
    (store.deleteProject project?).1.Written :=
  fun row member => written row (List.mem_filter.mp member).1

end Written

end VersionStore

/-- Whatever is asked of an archive, its schemas can be written out. -/
theorem Archive.run_written {archive : Archive} (written : archive.versions.Written)
    (requests : List Request) : (archive.run requests).versions.Written :=
  run_induction written
    (fun _ limits now candidate scope description kept =>
      kept.create limits now candidate scope description)
    fun _ project? _ kept => kept.delete project?

end Schemata
