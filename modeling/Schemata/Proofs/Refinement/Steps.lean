import Schemata.Proofs.Json.Parts
import Schemata.Refinement.Edit

/-! What one change does to a schema in its exchanged form: it adds a row at the end, takes rows out
or puts another row in place of the one that it names, and leaves all else alone. -/

namespace Schemata

theorem bind_eq_ok_iff {first : Except ε α} {next : α → Except ε β} :
    first >>= next = .ok b ↔ ∃ a, first = .ok a ∧ next a = .ok b := by
  cases first <;> simp [bind, Except.bind]

/-- The name of the table that a change is about, where it is about one that exists. -/
def Change.table? : Change → Option Json
  | addTable _ | addRelationship _ | deleteRelationship .. => none
  | modifyTable table _ | deleteTable table | addColumn table _ | modifyColumn table
      .. | deleteColumn table _
  | modifyHints table _ => some table

namespace Edit

/-- A form with these rows of tables and of relationships. -/
structure Holds (payload : Members) (tables relationships : List Json) : Prop where
  tables : payload.lookup "tables" = some (.arr tables)
  relationships : payload.lookup "relationships" = some (.arr relationships)

/-- What a change makes of the rows of tables and of relationships. -/
inductive Reshapes : Change → List Json → List Json → List Json → List Json → Prop where
  | addTable {table row : Members} {tables relationships : List Json}
      (complete : completeTable table = .ok row) :
    Reshapes (.addTable table) tables relationships (tables ++ [.obj row]) relationships
  | onTable {change : Change} {name old new : Json} {before after relationships : List Json}
    (about : change.table? = some name) (named : (old.member "name").same name = true) :
    Reshapes change (before ++ old :: after) relationships (before ++ new :: after) relationships
  | deleteTable {name : Json} {tables relationships : List Json} :
    Reshapes (.deleteTable name) tables relationships
      (tables.filter fun table => !(table.member "name").same name)
      (relationships.filter fun r =>
        !((r.member "from_table").same name || (r.member "to_table").same name))
  | addRelationship {relationship : Members} {tables relationships : List Json} :
    Reshapes (.addRelationship relationship) tables relationships tables (relationships ++
      [.obj relationship])
  | deleteRelationship {fromTable fromColumn : Json} {tables relationships : List Json} :
    Reshapes (.deleteRelationship fromTable fromColumn) tables relationships tables
      (relationships.filter fun r =>
        !((r.member "from_table").same fromTable && (r.member "from_column").same fromColumn))

private theorem findNamed_eq_some {name row : Json} {items : List Json}
    (found : findNamed name start items = .ok (some (place, row))) :
    ∃ before after, items = before ++ row :: after ∧ place = start + before.length ∧
      (row.member "name").same name = true := by
  induction items generalizing start with
  | nil => cases found
  | cons item rest ih =>
    rw [findNamed] at found
    split at found
    · cases found
    split at found
    · rename_i named
      cases found
      exact ⟨[], rest, rfl, rfl, named⟩
    · obtain ⟨before, after, rfl, rfl, named⟩ := ih found
      exact ⟨item :: before, after, rfl, by rw [List.length_cons]; omega, named⟩

private theorem keepRows_eq_ok {test : Json → Bool} {items kept : List Json}
    (done : keepRows test items = .ok kept) :
    kept = items.filter test := by
  induction items generalizing kept with
  | nil => cases done; rfl
  | cons item rest ih =>
    rw [keepRows] at done
    split at done
    · cases done
    · obtain ⟨rows, others, made⟩ := bind_eq_ok_iff.mp done
      rw [← Except.ok.inj made, ih others, List.filter_cons]

section

variable {payload next : Members} {tables relationships : List Json} {name : Json}

theorem Holds.putTables (holds : Holds payload tables relationships) (others : List Json) :
    Holds (payload.put "tables" (.arr others)) others relationships := by
  constructor <;> simp [Keyed.lookup_put, holds.relationships]

theorem Holds.putRelationships (holds : Holds payload tables relationships) (others : List Json) :
    Holds (payload.put "relationships" (.arr others)) tables others := by
  constructor <;> simp [Keyed.lookup_put, holds.tables]

/-! ### When a change can be made -/

theorem findTable_eq_ok_iff (holds : Holds payload tables relationships) :
    findTable payload name = .ok found ↔ findNamed name 0 tables = .ok (some found) := by
  simp only [findTable, holds.tables, rows, bind_eq_ok_iff]
  constructor
  · rintro ⟨_, ⟨⟩, result, located, there⟩
    cases result with
    | none => cases there
    | some target => rwa [← Except.ok.inj there]
  · exact fun located => ⟨tables, rfl, _, located, rfl⟩

theorem onTable_eq_ok_iff {edit : Json → Except Obstacle Json}
    (holds : Holds payload tables relationships) :
    onTable payload name edit = .ok next ↔ ∃ place old new,
      findNamed name 0 tables = .ok (some (place, old)) ∧
      edit old = .ok new ∧ next = payload.put "tables" (.arr (tables.set place new)) := by
  have replaced (place : Nat) (new : Json) :
      putTable payload place new = payload.put "tables" (.arr (tables.set place new)) := by
    simp only [putTable, holds.tables]
  constructor
  · intro done
    obtain ⟨⟨place, old⟩, found, done⟩ := bind_eq_ok_iff.mp done
    obtain ⟨new, made, done⟩ := bind_eq_ok_iff.mp done
    exact ⟨place, old, new, (findTable_eq_ok_iff holds).mp found, made,
      replaced place new ▸ (Except.ok.inj done).symm⟩
  · rintro ⟨place, old, new, located, made, rfl⟩
    refine bind_eq_ok_iff.mpr ⟨(place, old), (findTable_eq_ok_iff holds).mpr located, ?_⟩
    exact bind_eq_ok_iff.mpr ⟨new, made, congrArg Except.ok (replaced place new)⟩

theorem findColumn_eq_ok_iff (listed : lookup? table "columns" = some (.arr columns)) :
    findColumn table name = .ok (items, place, row) ↔
      items = columns ∧ findNamed name 0 columns = .ok (some (place, row)) := by
  simp only [findColumn, listed, rows, bind_eq_ok_iff]
  constructor
  · rintro ⟨_, ⟨⟩, result, located, there⟩
    cases result with
    | none => cases there
    | some target =>
      cases there
      exact ⟨rfl, located⟩
  · rintro ⟨rfl, located⟩
    exact ⟨items, rfl, _, located, rfl⟩

theorem onColumn_eq_ok_iff {edit : List Json → Nat → Json → List Json} :
    onColumn table name edit = .ok row ↔ ∃ items place column,
      findColumn table name = .ok (items, place, column) ∧
      row = put table "columns" (.arr (edit items place column)) := by
  constructor
  · intro done
    obtain ⟨⟨items, place, column⟩, found, made⟩ := bind_eq_ok_iff.mp done
    exact ⟨items, place, column, found, (Except.ok.inj made).symm⟩
  · rintro ⟨items, place, column, found, rfl⟩
    exact bind_eq_ok_iff.mpr ⟨_, found, rfl⟩

theorem addTable_eq_ok_iff (holds : Holds payload tables relationships) :
    step payload (.addTable table) = .ok next ↔ ∃ row, completeTable table = .ok row ∧
      next = payload.put "tables" (.arr (tables ++ [.obj row])) := by
  simp only [step, holds.tables, append, bind_eq_ok_iff]
  constructor
  · rintro ⟨row, complete, _, ⟨⟩, ⟨⟩⟩
    exact ⟨row, complete, rfl⟩
  · rintro ⟨row, complete, rfl⟩
    exact ⟨row, complete, _, rfl, rfl⟩

theorem addRelationship_eq_ok_iff (holds : Holds payload tables relationships) :
    step payload (.addRelationship relationship) = .ok next ↔
      next = payload.put "relationships" (.arr (relationships ++ [.obj relationship])) := by
  simp only [step, holds.relationships, append, bind_eq_ok_iff]
  constructor
  · rintro ⟨_, ⟨⟩, ⟨⟩⟩
    rfl
  · rintro rfl
    exact ⟨_, rfl, rfl⟩

theorem deleteTable_eq_ok_iff (holds : Holds payload tables relationships) :
    deleteTable payload name = .ok next ↔ (∃ found, findNamed name 0 tables = .ok (some found)) ∧
      ∃ kept spared,
      keepRows (fun table => !(table.member "name").same name) tables = .ok kept ∧
      keepRows (fun r => !((r.member "from_table").same name || (r.member "to_table").same name))
        relationships =
        .ok spared ∧
      next = (payload.put "tables" (.arr kept)).put "relationships" (.arr spared) := by
  have listed : (Json.obj payload).member "tables" = .arr tables := by
    simp [Json.member, holds.tables]
  simp only [deleteTable, relationshipRows, listed, holds.relationships, rows, bind_eq_ok_iff,
    findTable_eq_ok_iff holds]
  constructor
  · rintro ⟨found, located, _, ⟨⟩, kept, keptTables, _, ⟨⟩, spared, keptLinks, ⟨⟩⟩
    exact ⟨⟨found, located⟩, kept, spared, keptTables, keptLinks, rfl⟩
  · rintro ⟨⟨found, located⟩, kept, spared, keptTables, keptLinks, rfl⟩
    exact ⟨found, located, tables, rfl, kept, keptTables, relationships, rfl,
      spared, keptLinks, rfl⟩

theorem deleteRelationship_eq_ok_iff (holds : Holds payload tables relationships) :
    deleteRelationship payload fromTable fromColumn = .ok next ↔ ∃ kept,
      keepRows (fun r =>
        !((r.member "from_table").same fromTable && (r.member "from_column").same fromColumn))
        relationships = .ok kept ∧
      kept.length ≠ relationships.length ∧ next = payload.put "relationships" (.arr kept) := by
  simp only [deleteRelationship, relationshipRows, holds.relationships, rows, bind_eq_ok_iff]
  constructor
  · rintro ⟨_, ⟨⟩, kept, keptLinks, done⟩
    split at done
    · cases done
    · rename_i fewer
      exact ⟨kept, keptLinks, fewer, (Except.ok.inj done).symm⟩
  · rintro ⟨kept, keptLinks, fewer, rfl⟩
    exact ⟨relationships, rfl, kept, keptLinks, if_neg fewer⟩

/-- A change makes of the rows what its kind says, and leaves the version alone. -/
theorem step_reshapes (holds : Holds payload tables relationships)
    (done : step payload change = .ok next) :
    ∃ others links, Reshapes change tables relationships others links ∧ Holds next others links ∧
      next.lookup "version" = payload.lookup "version" := by
  have onTable {name : Json} {edit : Json → Except Obstacle Json}
      (about : change.table? = some name)
      (done : onTable payload name edit = .ok next) :
      ∃ others links, Reshapes change tables relationships others links ∧ Holds next others links ∧
        next.lookup "version" = payload.lookup "version" := by
    obtain ⟨place, old, new, located, -, rfl⟩ := (onTable_eq_ok_iff holds).mp done
    obtain ⟨before, after, rfl, rfl, named⟩ := findNamed_eq_some located
    refine ⟨before ++ new :: after, relationships, .onTable about named, ?_, by
      simp [Keyed.lookup_put]⟩
    simpa using holds.putTables (before ++ new :: after)
  cases change with
  | addTable table =>
    obtain ⟨row, complete, rfl⟩ := (addTable_eq_ok_iff holds).mp done
    exact ⟨_, _, .addTable complete, holds.putTables _, by simp [Keyed.lookup_put]⟩
  | addRelationship relationship =>
    obtain rfl := (addRelationship_eq_ok_iff holds).mp done
    exact ⟨_, _, .addRelationship, holds.putRelationships _, by simp [Keyed.lookup_put]⟩
  | deleteTable name =>
    obtain ⟨-, kept, spared, keptTables, keptLinks, rfl⟩ := (deleteTable_eq_ok_iff holds).mp done
    obtain rfl := keepRows_eq_ok keptTables
    obtain rfl := keepRows_eq_ok keptLinks
    exact ⟨_, _, .deleteTable, (holds.putTables _).putRelationships _, by simp [Keyed.lookup_put]⟩
  | deleteRelationship fromTable fromColumn =>
    obtain ⟨kept, keptLinks, -, rfl⟩ := (deleteRelationship_eq_ok_iff holds).mp done
    obtain rfl := keepRows_eq_ok keptLinks
    exact ⟨_, _, .deleteRelationship, holds.putRelationships _, by simp [Keyed.lookup_put]⟩
  | modifyTable | addColumn | modifyColumn | deleteColumn | modifyHints =>
    rw [step] at done
    exact onTable rfl done

end

end Edit

open Edit

namespace Change

/-- A change is applied when its step can be done; an obstacle is only put into words. -/
theorem apply_eq_ok_iff : apply payload change = .ok next ↔ step payload change = .ok next := by
  unfold apply
  cases step payload change with
  | ok result => simp
  | error obstacle => cases obstacle <;> simp

theorem foldlM_cons_eq_ok_iff {rest : List Change} :
    (change :: rest).foldlM apply payload = .ok next ↔
    ∃ middle, step payload change = .ok middle ∧ rest.foldlM apply middle = .ok next := by
  simp only [List.foldlM_cons, bind_eq_ok_iff, apply_eq_ok_iff]

end Change

end Schemata
