import Schemata.Proofs.History.Lasting
import Schemata.Proofs.Shape.Explained

/-! Scopes beside each other. Storing a schema looks at the versions of its own scope and changes no
others. Only a user's two scopes without a project of a name, one with no project at all and one
whose project has the empty name, stand in each other's way: as long as one of them has versions,
the other one gets none. -/

namespace Schemata

/-- The scope that counts as this one when versions are activated. -/
def Scope.twin? (scope : Scope) : Option Scope :=
  match scope.project? with
  | none => some ⟨some "", scope.user⟩
  | some project => if project = "" then some ⟨none, scope.user⟩ else none

theorem Scope.twin?_eq_some_iff {scope other : Scope} :
    scope.twin? = some other ↔ other ≠ scope ∧ VersionStore.Clashes other scope := by
  obtain ⟨project?, user⟩ := scope
  obtain ⟨others?, rival⟩ := other
  cases project? with
  | none => cases others? <;> grind [twin?, VersionStore.Clashes]
  | some project => cases others? <;> grind [twin?, VersionStore.Clashes]

theorem Numbered.filter_active {rows : List Version} (numbered : Numbered rows) :
    rows.filter (·.active) = rows.getLast?.toList := by
  rcases List.eq_nil_or_concat rows with rfl | ⟨earlier, last, rfl⟩
  · rfl
  · have revisions := numbered.revisions
    rw [List.concat_eq_append, List.map_append, List.length_append, List.length_singleton,
      List.range'_1_concat] at revisions
    obtain ⟨before, newest⟩ := List.append_inj' revisions rfl
    have older : ∀ row ∈ earlier, row.active = false := by
      intro row member
      have listed := List.mem_map_of_mem (f := Version.revision) member
      rw [before, List.mem_range'_1] at listed
      refine Bool.eq_false_iff.mpr fun live => ?_
      have highest := (numbered.active row (by simp [member])).mp live
      rw [List.concat_eq_append, List.length_append, List.length_singleton] at highest
      omega
    have live : last.active = true := by
      refine (numbered.active last (by simp)).mpr ?_
      simpa [Nat.add_comm] using newest
    rw [List.concat_eq_append, List.filter_append,
      List.filter_eq_nil_iff.mpr (by simpa using older)]
    simp [live]

namespace VersionStore

variable {store : VersionStore} {limits : Limits} {now : Instant} {candidate : Candidate}
  {scope other : Scope} {schema : Schema} {description : String} {version : Version}

theorem isBlocked_eq_false_iff (orderly : store.Orderly) :
    store.isBlocked scope = false ↔ ∀ twin, scope.twin? = some twin → store.ofScope twin = [] := by
  constructor
  · intro free twin same
    obtain ⟨differs, clash⟩ := Scope.twin?_eq_some_iff.mp same
    by_contra versions
    obtain ⟨newest, inside, -, -, only⟩ := (orderly.numbered twin).exists_newest versions
    obtain ⟨member, own⟩ := mem_ofScope.mp inside
    have live : newest.active = true := (only newest inside).mpr rfl
    have unblocked := List.any_eq_false.mp free newest member
    rw [← own] at differs clash
    simp [live, differs, clash] at unblocked
  · intro unused
    refine List.any_eq_false.mpr fun row member blocking => ?_
    simp only [Bool.and_eq_true, bne_iff_ne, decide_eq_true_eq] at blocking
    obtain ⟨⟨-, differs⟩, clash⟩ := blocking
    have none := unused row.scope (Scope.twin?_eq_some_iff.mpr ⟨differs, clash⟩)
    exact List.ne_nil_of_mem (mem_ofScope.mpr ⟨member, rfl⟩) none

/-- What storing a schema makes of the versions of a scope: the active one, which is the last, is
retired, and the new one, which alone is active then, has the next revision. Only its identifier is
not settled by these versions. -/
structure Advances (now : Instant) (scope : Scope) (schema : Schema) (description : String)
    (rows : List Version) (version : Version) (after : List Version) : Prop where
  stored : version = ⟨version.id, scope, rows.length + 1, schema, description, now, true⟩
  replaced : rows.filter (·.active) = rows.getLast?.toList
  rows : after = rows.map (fun row => { row with active := false }) ++ [version.settled]
  live : after.filter (·.active) = [version.settled]

/-- The same versions are advanced in the same way. -/
theorem Advances.same {rows after later : List Version} {next : Version}
    (first : Advances now scope schema description rows version after)
    (second : Advances now scope schema description rows next later) :
    next = { version with id := next.id } ∧
      ∃ kept, after = kept ++ [version.settled] ∧ later = kept ++ [next.settled] := by
  refine ⟨?_, _, first.rows, second.rows⟩
  rw [first.stored]
  exact second.stored

/-- How storing an accepted schema in a scope ends, and what it leaves there and in other scopes. -/
structure Confined (limits : Limits) (now : Instant) (store : VersionStore) (candidate : Candidate)
    (scope : Scope) (schema : Schema) (description : String) : Prop where
  succeeds : (∃ version, (create limits now store candidate scope description).2 = .ok version) ↔
    schema.isWritable = true ∧ ∀ twin, scope.twin? = some twin → store.ofScope twin = []
  advances : ∀ version, (create limits now store candidate scope description).2 = .ok version →
    Advances now scope schema description (store.ofScope scope) version
      ((create limits now store candidate scope description).1.ofScope scope)
  refused : ∀ problem, (create limits now store candidate scope description).2 = .error problem →
    (create limits now store candidate scope description).1.rows = store.rows
  others : ∀ other, other ≠ scope →
    (create limits now store candidate scope description).1.ofScope other = store.ofScope other

theorem grown_advances (orderly : store.Orderly) (now : Instant) (scope : Scope) (schema : Schema)
    (description : String) :
    Advances now scope schema description (store.ofScope scope)
      (store.next now scope schema description)
      ((store.grown scope (store.next now scope schema description)).ofScope scope) where
  stored := by rw [next, nextRevision_eq (orderly.numbered scope)]
  replaced := (orderly.numbered scope).filter_active
  rows := ofScope_grown_self rfl
  live := by
    have own : (store.next now scope schema description).scope = scope := rfl
    rw [ofScope_grown_self own, List.filter_append, List.filter_eq_nil_iff.mpr (by simp)]
    simp [next]

theorem create_confined (orderly : store.Orderly)
    (accepted : (validate candidate limits).accepted? = some schema) (now : Instant) (scope : Scope)
    (description : String) : Confined limits now store candidate scope schema description := by
  rcases store.admitted_or_hindered scope accepted with admitted | ⟨problem, hindered⟩
  · have made := admitted.create_eq now description
    have unused := (isBlocked_eq_false_iff orderly).mp admitted.free
    refine ⟨⟨fun _ => ⟨admitted.writable, unused⟩, fun _ => ⟨_, congrArg Prod.snd made⟩⟩, ?_, ?_,
      ?_⟩
    · intro version stored
      rw [made] at stored ⊢
      obtain rfl := Except.ok.inj stored
      exact grown_advances orderly now scope schema description
    · intro problem failed
      rw [made] at failed
      cases failed
    · intro other differs
      rw [made]
      exact ofScope_grown_other rfl differs
  · have made := hindered.create_eq accepted now description
    refine ⟨⟨?_, ?_⟩, ?_, fun _ _ => by rw [made], fun other _ => by rw [made]; rfl⟩
    · rintro ⟨version, stored⟩
      rw [made] at stored
      cases stored
    · rintro ⟨writable, unused⟩
      cases hindered with
      | unwritable buried =>
        rw [writable] at buried
        cases buried
      | blocked _ taken =>
        rw [(isBlocked_eq_false_iff orderly).mpr unused] at taken
        cases taken
    · intro version stored
      rw [made] at stored
      cases stored

end VersionStore

namespace Archive

/-- Storing a schema that passes the rules, whatever was asked of the archive before, is settled by
the versions of its scope and changes no others: it succeeds when the schema can be written out and
the twin of the scope has no versions, and then it does the same in every archive with these
versions in the scope. -/
theorem create_independent (traces? : Option TraceLog) (requests : List Request)
    (limits : Limits) (now : Instant) (candidate : Candidate) (scope : Scope) (description : String)
    (passed : (validate candidate limits).passed = true) :
    ∃ schema, (validate candidate limits).accepted? = some schema ∧
      VersionStore.Confined limits now ((empty traces?).run requests).versions candidate scope
        schema description ∧
      ∀ (log? : Option TraceLog) (others : List Request),
        ((empty log?).run others).versions.ofScope scope =
          ((empty traces?).run requests).versions.ofScope scope →
        ∀ first stored second next,
          VersionStore.create limits now ((empty traces?).run requests).versions candidate
            scope description =
            (first, .ok stored) →
          VersionStore.create limits now ((empty log?).run others).versions candidate
            scope description =
            (second, .ok next) →
          next = { stored with id := next.id } ∧
            ∃ kept, first.ofScope scope = kept ++ [stored.settled] ∧
              second.ofScope scope = kept ++ [next.settled] := by
  obtain ⟨schema, accepted⟩ := (passed_iff_accepted candidate limits).mp passed
  have confined (log? : Option TraceLog) (requests : List Request) :=
    VersionStore.create_confined (run_orderly VersionStore.empty_orderly requests :
      ((empty log?).run requests).versions.Orderly) accepted now scope description
  refine ⟨schema, accepted, confined traces? requests, ?_⟩
  intro log? others same first stored second next made also
  have one := (confined traces? requests).advances stored (by rw [made])
  have other := (confined log? others).advances next (by rw [also])
  rw [made] at one
  rw [also, same] at other
  exact one.same other

/-- Ada stores deals outside of projects. -/
def personal : List Request :=
  [.create .standard (.ofSeconds 1) (.schema .deals) ⟨none, "ada"⟩ "Personal"]

theorem deals_admitted (scope : Scope) :
    VersionStore.Admitted .standard .empty (.schema .deals) scope .deals :=
  ⟨if_pos Schema.deals_passed, by decide, rfl⟩

theorem personal_ofScope (scope : Scope) : ((empty none).run personal).versions.ofScope scope =
    if scope = ⟨none, "ada"⟩ then
      [(VersionStore.empty.next (.ofSeconds 1) ⟨none, "ada"⟩ .deals "Personal").settled]
    else [] := by
  have made : ((empty none).run personal).versions = VersionStore.empty.grown ⟨none, "ada"⟩
      (VersionStore.empty.next (.ofSeconds 1) ⟨none, "ada"⟩ .deals "Personal") :=
    congrArg Prod.fst ((deals_admitted ⟨none, "ada"⟩).create_eq (.ofSeconds 1) "Personal")
  have own : (VersionStore.empty.next (.ofSeconds 1) ⟨none, "ada"⟩ .deals "Personal").scope =
      ⟨none, "ada"⟩ := rfl
  rw [made]
  split
  · rename_i same
    rw [same, VersionStore.ofScope_grown_self own]
    rfl
  · rename_i differs
    rw [VersionStore.ofScope_grown_other own differs]
    rfl

/-- Her first version in a project of a name has the first revision all the same. -/
theorem crm_deals_independent :
    (validate (.schema .deals) .standard).passed = true ∧
      ∃ version, (VersionStore.create .standard (.ofSeconds 2) ((empty none).run personal).versions
        (.schema .deals) ⟨some "crm", "ada"⟩ "Project").2 = .ok version ∧ version.revision = 1 := by
  obtain ⟨schema, accepted, confined, -⟩ :=
    create_independent none personal .standard (.ofSeconds 2)
    (.schema .deals) ⟨some "crm", "ada"⟩ "Project" Schema.deals_passed
  obtain rfl : schema = .deals :=
    Option.some.inj (accepted.symm.trans (deals_admitted ⟨some "crm", "ada"⟩).accepted)
  obtain ⟨version, stored⟩ := confined.succeeds.mpr ⟨by decide, by simp [Scope.twin?]⟩
  have revision := congrArg Version.revision (confined.advances version stored).stored
  rw [personal_ofScope, if_neg (by decide)] at revision
  exact ⟨Schema.deals_passed, version, stored, revision⟩

/-- Scopes are not always independent: with versions outside of projects Ada gets none in the
project without a name. -/
theorem not_always_independent : ¬ ∀ (requests : List Request) limits now schema scope description,
    (validate (.schema schema) limits).passed = true →
    ∃ version, (VersionStore.create limits now ((empty none).run requests).versions
      (.schema schema) scope
      description).2 = .ok version := by
  intro independent
  have stored := independent personal .standard (.ofSeconds 2) .deals ⟨some "", "ada"⟩ "Nameless"
    Schema.deals_passed
  have confined := VersionStore.create_confined
    (run_orderly VersionStore.empty_orderly personal : ((empty none).run personal).versions.Orderly)
    (deals_admitted ⟨some "", "ada"⟩).accepted (.ofSeconds 2) ⟨some "", "ada"⟩ "Nameless"
  have unused := (confined.succeeds.mp stored).2 ⟨none, "ada"⟩ rfl
  rw [personal_ofScope, if_pos rfl] at unused
  cases unused

end Archive

end Schemata
