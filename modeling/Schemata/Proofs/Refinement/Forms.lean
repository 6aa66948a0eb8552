import Schemata.Proofs.Refinement.Frame

/-! Changes of a schema that has been written out. Its rows are found by the names that its tables
and columns have, and a form of which the rows are known reads as the schema of these rows. -/

namespace Schemata

open Checked Decode

theorem exists_eq_ok_of_isOk {result : Except ε α} (ok : result.isOk = true) :
    ∃ a, result = .ok a := by
  cases result with
  | ok a => exact ⟨a, rfl⟩
  | error e => cases ok

namespace Edit

/-! ### Finding and keeping rows -/

section

variable {write : α → Json} {nameOf : α → String} {values : List α}

/-- Among written rows the first one of a name is found, with its place. -/
theorem findNamed_map_iff (object : ∀ a, isObject (write a) = true)
    (named : ∀ a, (write a).member "name" = .str (nameOf a)) :
    findNamed name start (values.map write) = .ok (some (place, row)) ↔
      ∃ before a after, values = before ++ a :: after ∧ (∀ b ∈ before, nameOf b ≠ nameOf a) ∧
        name = .str (nameOf a) ∧ place = start + before.length ∧ row = write a := by
  induction values generalizing start with
  | nil => simp [findNamed]
  | cons a rest ih =>
    have looked : findNamed name start (write a :: rest.map write) =
        if name = .str (nameOf a) then .ok (some (start, write a))
        else findNamed name (start + 1) (rest.map write) := by
      simp only [findNamed, object, named, Json.same_str_iff, Bool.not_true,
        Bool.false_eq_true, if_false]
    rw [List.map_cons, looked]
    constructor
    · intro found
      split at found
      · rename_i here
        obtain ⟨rfl, rfl⟩ := Prod.mk.inj (Option.some.inj (Except.ok.inj found))
        exact ⟨[], a, rest, rfl, by simp, here, rfl, rfl⟩
      · rename_i passed
        obtain ⟨before, b, after, rfl, apart, rfl, rfl, rfl⟩ := ih.mp found
        have first : nameOf a ≠ nameOf b := fun same => passed (congrArg Json.str same.symm)
        exact ⟨a :: before, b, after, rfl, List.forall_mem_cons.mpr ⟨first, apart⟩, rfl,
          by rw [List.length_cons]; omega, rfl⟩
    · rintro ⟨before, b, after, split, apart, rfl, rfl, rfl⟩
      cases before with
      | nil =>
        obtain ⟨rfl, -⟩ := List.cons.inj split
        exact if_pos rfl
      | cons c before =>
        obtain ⟨rfl, rfl⟩ := List.cons.inj split
        obtain ⟨first, apart⟩ := List.forall_mem_cons.mp apart
        rw [if_neg fun same => first (Json.str.inj same).symm]
        exact ih.mpr ⟨before, b, after, rfl, apart, rfl, by rw [List.length_cons]; omega, rfl⟩

theorem keepRows_map {test : Json → Bool} {keep : α → Bool}
    (object : ∀ a, isObject (write a) = true) (same : ∀ a, test (write a) = keep a) :
    keepRows test (values.map write) = .ok ((values.filter keep).map write) := by
  induction values with
  | nil => rfl
  | cons a rest ih =>
    rw [List.map_cons, keepRows, object, ih, same, List.filter_cons]
    cases keep a <;> rfl

theorem set_map (split : values = before ++ a :: after) (row : Json) :
    (values.map write).set before.length row = before.map write ++ row :: after.map write := by
  simp [split]

theorem exists_findNamed_map (object : ∀ a, isObject (write a) = true)
    (named : ∀ a, (write a).member "name" = .str (nameOf a)) (member : a ∈ values) :
    ∃ found, findNamed (.str (nameOf a)) 0 (values.map write) = .ok (some found) := by
  have there : (values.find? fun b => nameOf b == nameOf a).isSome := by
    rw [List.find?_isSome]
    exact ⟨a, member, beq_self_eq_true _⟩
  obtain ⟨b, found⟩ := Option.isSome_iff_exists.mp there
  obtain ⟨same, before, after, split, apart⟩ := List.find?_eq_some_iff_append.mp found
  have same := eq_of_beq same
  refine ⟨_, (findNamed_map_iff object named).mpr ⟨before, b, after, split, fun c inside =>
    ?_, by rw [same], rfl, rfl⟩⟩
  simpa [same] using apart c inside

end

/-! ### Reading rows -/

/-- Rows that read one by one as these values. -/
abbrev ReadAs (decode : Json → Checked α) (rows : List Json) (values : List α) : Prop :=
  List.Forall₂ (fun row a => decode row = .valid a) rows values

theorem optional_rows_iff {decode : Json → Checked α} {members : Members} {rows : List Json}
    (found : members.lookup name = some (.arr rows)) :
    Decode.optional members [name] [] (list decode) = .valid values ↔
      ReadAs decode rows values := by
  rw [optional_of_lookup found, under_eq_valid_iff, list_eq_valid_iff]
  simp

theorem readAs_append_iff {decode : Json → Checked α} {rows more : List Json} {read : List α} :
    ReadAs decode (rows ++ more) read ↔
      ∃ first rest, ReadAs decode rows first ∧ ReadAs decode more rest ∧ read = first ++ rest := by
  induction rows generalizing read with
  | nil => simp
  | cons row rows ih =>
    simp only [List.cons_append, List.forall₂_cons_left_iff, ih]
    constructor
    · rintro ⟨a, _, valid, ⟨first, rest, each, others, rfl⟩, rfl⟩
      exact ⟨a :: first, rest, ⟨a, first, valid, each, rfl⟩, others, rfl⟩
    · rintro ⟨_, rest, ⟨a, first, valid, each, rfl⟩, others, rfl⟩
      exact ⟨a, first ++ rest, valid, ⟨first, rest, each, others, rfl⟩, rfl⟩

section

variable {decode : Json → Checked β} {write : α → Json} {settle : α → β}

/-- Rows that were written for values read as these values, settled. -/
theorem readAs_map_iff (reads : ∀ a, decode (write a) = .valid (settle a)) {values : List α}
    {read : List β} :
    ReadAs decode (values.map write) read ↔ read = values.map settle := by
  simp only [List.forall₂_map_left_iff, reads, Checked.valid.injEq]
  rw [← List.forall₂_map_left_iff (f := settle), List.forall₂_eq_eq_eq, eq_comm]

theorem readAs_replace_iff (reads : ∀ a, decode (write a) = .valid (settle a))
    {before after : List α} {row : Json} {read : List β} :
    ReadAs decode (before.map write ++ row :: after.map write) read ↔
      ∃ b, decode row = .valid b ∧ read = before.map settle ++ b :: after.map settle := by
  simp only [readAs_append_iff, List.forall₂_cons_left_iff, readAs_map_iff reads]
  constructor
  · rintro ⟨_, _, rfl, ⟨b, _, valid, rfl, rfl⟩, rfl⟩
    exact ⟨b, valid, rfl⟩
  · rintro ⟨b, valid, rfl⟩
    exact ⟨_, _, rfl, ⟨b, _, valid, rfl, rfl⟩, rfl⟩

end

variable {payload : Members} {tables links : List Json}

/-- A form reads as a schema exactly when its rows read as the tables and the relationships of
it. -/
theorem Holds.read_iff (holds : Holds payload tables links)
    (version : payload.lookup "version" = some (.str v)) :
    Schema.ofMembers payload = .valid schema ↔ schema.version = v ∧
      ReadAs Table.decode tables schema.tables ∧
        ReadAs Relationship.decode links schema.relationships := by
  rw [Schema.ofMembers_eq_valid_iff, optional_rows_iff holds.tables,
    optional_rows_iff holds.relationships, optional_of_lookup version, under_eq_valid_iff,
    string_eq_valid_iff, Json.str.injEq, eq_comm]

/-- A form with the rows of a schema reads as that schema, settled. -/
theorem Holds.read {schema : Schema}
    (holds : Holds payload (schema.tables.map (Table.toJson .omitted))
      (schema.relationships.map Relationship.toJson))
    (version : payload.lookup "version" = some (.str schema.version)) :
    Schema.ofMembers payload = .valid schema.settled := by
  refine (holds.read_iff version).mpr ⟨rfl, (readAs_map_iff Table.decode_toJson).mpr rfl, ?_⟩
  exact (readAs_map_iff Relationship.decode_toJson).mpr (List.map_id _).symm

/-! ### Tables and their columns -/

theorem isObject_table (table : Table) : isObject (table.toJson .omitted) = true := rfl

theorem member_name_table (table : Table) :
    (table.toJson .omitted).member "name" = .str table.name := rfl

private theorem isObject_column (column : Column) : isObject (column.toJson .omitted) = true := rfl

private theorem member_name_column (column : Column) :
    (column.toJson .omitted).member "name" = .str column.name := rfl

section

variable {table : Table} {schema revised : Schema} {change : Change} {edit : Json →
  Except Obstacle Json}

theorem revise_singleton_iff : schema.revise [change] = .ok revised ↔ schema.isWritable = true ∧
    ∃ payload, step (schema.members .omitted) change = .ok payload ∧ Schema.ofMembers payload =
      .valid revised := by
  simp only [revise_eq_ok_iff, Change.foldlM_cons_eq_ok_iff, List.foldlM_nil, pure, Except.pure,
    Except.ok.injEq, exists_eq_right]

/-- One row among the rows of tables is read in its place, and the rest of the schema as it was. -/
theorem read_tables_iff (before after : List Table) (row : Json) :
    Schema.ofMembers ((schema.members .omitted).put "tables"
        (.arr (before.map (Table.toJson .omitted) ++ row :: after.map (Table.toJson .omitted)))) =
          .valid revised ↔
      ∃ new, Table.decode row = .valid new ∧ revised = ⟨schema.version,
        before.map Table.settled ++ new :: after.map Table.settled, schema.relationships⟩ := by
  have holds := (holds_members schema).putTables
    (before.map (Table.toJson .omitted) ++ row :: after.map (Table.toJson .omitted))
  rw [holds.read_iff rfl, readAs_replace_iff Table.decode_toJson,
    readAs_map_iff Relationship.decode_toJson]
  constructor
  · cases revised
    rintro ⟨rfl, ⟨new, valid, rfl⟩, links⟩
    rw [List.map_id'] at links
    exact ⟨new, valid, congrArg _ links⟩
  · rintro ⟨new, valid, rfl⟩
    exact ⟨rfl, ⟨new, valid, rfl⟩, (List.map_id' _).symm⟩

/-- A change of the table of a name changes the first table of that name and leaves the rest of the
schema alone. -/
theorem revise_onTable_iff
    (about : step (schema.members .omitted) change = onTable (schema.members .omitted) name edit) :
    schema.revise [change] = .ok revised ↔ schema.isWritable = true ∧
      ∃ before table after, schema.tables = before ++ table :: after ∧
        (∀ other ∈ before, other.name ≠ table.name) ∧
        name = .str table.name ∧ ∃ row new, edit (table.toJson .omitted) = .ok row ∧
          Table.decode row = .valid new ∧
          revised = ⟨schema.version, before.map Table.settled ++ new :: after.map Table.settled,
            schema.relationships⟩ := by
  rw [revise_singleton_iff, about]
  simp only [onTable_eq_ok_iff (holds_members schema),
    findNamed_map_iff isObject_table member_name_table, Nat.zero_add]
  constructor
  · rintro ⟨writable, _, ⟨_, _, row, ⟨before, table, after, split, apart, rfl, rfl, rfl⟩,
      made, rfl⟩, read⟩
    rw [set_map split] at read
    obtain ⟨new, valid, same⟩ := (read_tables_iff before after row).mp read
    exact ⟨writable, before, table, after, split, apart, rfl, row, new, made, valid, same⟩
  · rintro ⟨writable, before, table, after, split, apart, rfl, row, new, made, valid, same⟩
    refine ⟨writable, _, ⟨_, _, row, ⟨before, table, after, split, apart, rfl, rfl, rfl⟩, made,
      rfl⟩, ?_⟩
    rw [set_map split]
    exact (read_tables_iff before after row).mpr ⟨new, valid, same⟩

/-- A change of the column of a name changes the first column of that name. -/
theorem onColumn_toJson_iff {edit : List Json → Nat → Json → List Json} :
    onColumn (table.toJson .omitted) name edit = .ok row ↔ ∃ front column back,
      table.columns = front ++ column :: back ∧ (∀ other ∈ front, other.name ≠ column.name) ∧
        name = .str column.name ∧ row = put (table.toJson .omitted) "columns" (.arr
          (edit (table.columns.map (Column.toJson .omitted)) front.length
            (column.toJson .omitted))) := by
  have listed : lookup? (table.toJson .omitted) "columns" =
      some (.arr (table.columns.map (Column.toJson .omitted))) := rfl
  simp only [onColumn_eq_ok_iff, findColumn_eq_ok_iff listed,
    findNamed_map_iff isObject_column member_name_column, Nat.zero_add]
  constructor
  · rintro ⟨_, _, _, ⟨rfl, front, column, back, split, apart, rfl, rfl, rfl⟩, rfl⟩
    exact ⟨front, column, back, split, apart, rfl, rfl⟩
  · rintro ⟨front, column, back, split, apart, rfl, rfl⟩
    exact ⟨_, _, _, ⟨rfl, front, column, back, split, apart, rfl, rfl, rfl⟩, rfl⟩

/-- A table with other rows of columns reads as the table with the columns that these rows read
as. -/
theorem decode_put_columns_iff {rows : List Json} {new : Table} :
    Table.decode (put (table.toJson .omitted) "columns" (.arr rows)) = .valid new ↔
      ∃ columns, ReadAs Column.decode rows columns ∧ new = { table.settled with columns } := by
  obtain ⟨name, -, indexes, hints⟩ := Table.ofMembers_eq_valid_iff.mp table.decode_toJson
  constructor
  · intro valid
    obtain ⟨nameNew, columns, indexesNew, hintsNew⟩ := Table.ofMembers_eq_valid_iff.mp valid
    have sameName := Checked.valid.inj (nameNew.symm.trans name)
    have sameIndexes := Checked.valid.inj (indexesNew.symm.trans indexes)
    have sameHints := Checked.valid.inj (hintsNew.symm.trans hints)
    refine ⟨new.columns, (optional_rows_iff rfl).mp columns, ?_⟩
    simp only [← sameName, ← sameIndexes, ← sameHints]
  · rintro ⟨columns, each, rfl⟩
    exact Table.ofMembers_eq_valid_iff.mpr ⟨name, (optional_rows_iff rfl).mpr each, indexes, hints⟩

end

end Edit

end Schemata
