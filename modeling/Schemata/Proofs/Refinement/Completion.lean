import Schemata.Proofs.Refinement.Forms
import Schemata.Proofs.Rules.Sound

/-! Tables that are added. The audit columns that an added table lacks are put around the columns
that it was given, and of columns that are no audit columns and no keys the result passes the
audit. -/

namespace Schemata

open Checked Decode Edit

/-- Those of the named audit columns that are not among the given columns. -/
def lackedAudit (names : List String) (given : List Column) : List Column :=
  auditColumns.filter fun audit => names.contains audit.name && !given.any (·.name == audit.name)

/-- The given columns among the audit columns that they lack. -/
def withAudit (given : List Column) : List Column :=
  lackedAudit ["id", "user_id"] given ++ given ++ lackedAudit ["created_at", "updated_at"] given

variable {given : List Column} {audit : Column}

theorem filter_withAudit (member : audit ∈ auditColumns)
    (absent : ∀ column ∈ given, column.name ≠ audit.name) :
    (withAudit given).filter (·.name == audit.name) = [audit] := by
  have among : given.filter (·.name == audit.name) = [] := by simpa using absent
  have lacked : given.any (·.name == audit.name) = false := by simpa using absent
  rw [withAudit, List.filter_append, List.filter_append, among, lackedAudit, lackedAudit,
    List.filter_filter, List.filter_filter]
  -- audit columns have different names, and each is looked for on one side only
  simp only [auditColumns, List.mem_cons, List.not_mem_nil, or_false] at member
  obtain rfl | rfl | rfl | rfl := member <;> simp [auditColumns, lacked]

private theorem mem_auditColumns_or_of_mem_withAudit (member : column ∈ withAudit given) :
    column ∈ auditColumns ∨ column ∈ given := by
  simp only [withAudit, lackedAudit, List.mem_append, List.mem_filter] at member
  obtain (⟨audit, -⟩ | supplied) | ⟨audit, -⟩ := member
  · exact .inl audit
  · exact .inr supplied
  · exact .inl audit

/-- The audit has nothing to report of a table whose other columns are no keys. -/
theorem tableAuditViolations_of_withAudit {table : Table}
    (completed : table.columns = withAudit given)
    (plain : ∀ column ∈ given, column.name ∉ auditNames ∧ column.primaryKey = false) :
    tableAuditViolations table = [] := by
  have named : ∀ audit ∈ auditColumns, audit.name ∈ auditNames := by decide
  -- names of given columns may repeat, so the search ends at the one audit column of its name
  have found : ∀ audit ∈ auditColumns, table.column? audit.name = some audit := by
    intro audit member
    have absent : ∀ column ∈ given, column.name ≠ audit.name := fun column inside same =>
      (plain column inside).1 (same ▸ named audit member)
    rw [Table.column?, ← List.head?_filter, completed, filter_withAudit member absent,
      List.head?_cons]
  have keyed : ∀ column ∈ table.columns, column.primaryKey = true → column.name = "id" := by
    intro column member key
    obtain audit | supplied := mem_auditColumns_or_of_mem_withAudit (completed ▸ member)
    · exact (by decide : ∀ audit ∈ auditColumns, audit.primaryKey = true → audit.name =
        "id") column audit key
    · exact absurd (key.symm.trans (plain column supplied).2) (by decide)
  simp only [auditColumns, List.forall_mem_cons] at found
  obtain ⟨id, user, created, updated, -⟩ := found
  simpa [tableAuditViolations, auditNames, ofFirstColumn, id, user, created, updated, idViolations,
    userIdViolations, timestampViolations, ColumnType.isTimestamp, imp_iff_not_or] using keyed

/-! ### Reading a completed table -/

variable {rows : List Json}

theorem Column.member_name_of_decode {column : Column} (valid : decode row = .valid column) :
    row.member "name" = .str column.name := by
  obtain ⟨members, object, read⟩ := record_eq_valid_iff.mp valid
  have named := required_string_eq_valid_iff.mp (ofMembers_eq_valid_iff.mp read).1
  rw [Json.member, object]
  simp only [named, Option.getD_some]

private theorem any_member_name (each : ReadAs Column.decode rows given) (name : String) :
    rows.any (fun row => (row.member "name").same (.str name)) = given.any (·.name == name) := by
  induction each with
  | nil => rfl
  | cons valid _ ih =>
    rw [List.any_cons, List.any_cons, ih, Column.member_name_of_decode valid, Json.same_str]

theorem missingAudit_of_readAs (each : ReadAs Column.decode rows given) (names : List String) :
    missingAudit names rows = (lackedAudit names given).map (Column.toJson .omitted) := by
  simp only [missingAudit, lackedAudit, any_member_name each]

/-- The rows of a completed table read as the columns that its own rows read as, among the audit
columns. -/
theorem exists_readAs_of_completed {columns : List Column}
    (all : ReadAs Column.decode
      (missingAudit ["id", "user_id"] rows ++ rows ++
        missingAudit ["created_at", "updated_at"] rows) columns) :
    ∃ given, ReadAs Column.decode rows given ∧ columns = withAudit given := by
  obtain ⟨_, back, start, last, rfl⟩ := readAs_append_iff.mp all
  obtain ⟨front, given, first, each, rfl⟩ := readAs_append_iff.mp start
  rw [missingAudit_of_readAs each, readAs_map_iff Column.decode_toJson, List.map_id'] at first last
  exact ⟨given, each, by rw [first, last, withAudit]⟩

namespace Edit

theorem completeTable_eq_ok_iff {table completed : Members}
    (listed : (table.lookup "columns").getD (.arr []) = .arr rows) :
    completeTable table = .ok completed ↔ (∀ row ∈ rows, isPlain (row.member "name") = true) ∧
      completed = table.put "columns" (.arr
        (missingAudit ["id", "user_id"] rows ++ rows ++
          missingAudit ["created_at", "updated_at"] rows)) := by
  simp only [completeTable, listed, Edit.rows, bind, Except.bind]
  cases found : rows.find? fun row => !isPlain (row.member "name") with
  | none =>
    have plain : ∀ row ∈ rows, isPlain (row.member "name") = true := by simpa using found
    simp only [pure, Except.pure, Except.ok.injEq]
    exact ⟨fun same => ⟨plain, same.symm⟩, fun both => both.2.symm⟩
  | some row =>
    simp only [throw, throwThe, MonadExceptOf.throw, reduceCtorEq, false_iff]
    rintro ⟨plain, -⟩
    simpa [plain row (List.mem_of_find?_eq_some found)] using List.find?_some found

variable {schema revised : Schema} {table : Members}

/-- A table that is added is completed, and the result read after the other tables. -/
theorem revise_addTable_iff : schema.revise [.addTable table] = .ok revised ↔
    schema.isWritable = true ∧
    ∃ row new, completeTable table = .ok row ∧ Table.ofMembers row = .valid new ∧
      revised = ⟨schema.version, schema.tables.map Table.settled ++
        [new], schema.relationships⟩ := by
  simp only [revise_singleton_iff, addTable_eq_ok_iff (holds_members schema)]
  constructor
  · rintro ⟨writable, _, ⟨row, complete, rfl⟩, valid⟩
    obtain ⟨new, valid, same⟩ := (read_tables_iff schema.tables [] (.obj row)).mp valid
    exact ⟨writable, row, new, complete, valid, same⟩
  · rintro ⟨writable, row, new, complete, valid, same⟩
    exact ⟨writable, _, ⟨row, complete, rfl⟩,
      (read_tables_iff schema.tables [] (.obj row)).mpr ⟨new, valid, same⟩⟩

end Edit

namespace Schema

variable {schema revised : Schema} {table : Members}

/-- A table that is added stands last. It has the columns that it was given, as they are read, among
the audit columns that it was not given, each of these once and in canonical form. With no other
audit columns and no keys among the given ones, the audit has nothing to report of it. -/
theorem revise_addTable (listed : (table.lookup "columns").getD (.arr []) = .arr rows)
    (done : schema.revise [.addTable table] = .ok revised) :
    ∃ new given, revised = ⟨schema.version, schema.tables.map Table.settled ++
      [new], schema.relationships⟩ ∧
      table.lookup "name" = some (.str new.name) ∧ ReadAs Column.decode rows given ∧
      new.columns = withAudit given ∧
      (∀ audit ∈ auditColumns, (∀ column ∈ given, column.name ≠ audit.name) →
        new.columns.filter (·.name == audit.name) = [audit]) ∧
      ((∀ column ∈ given, column.name ∉ auditNames ∧ column.primaryKey = false) →
        tableAuditViolations new = []) := by
  obtain ⟨-, _, new, complete, valid, result⟩ := revise_addTable_iff.mp done
  obtain ⟨-, rfl⟩ := (completeTable_eq_ok_iff listed).mp complete
  obtain ⟨name, columns, -, -⟩ := Table.ofMembers_eq_valid_iff.mp valid
  rw [required_string_eq_valid_iff, Keyed.lookup_put, if_neg (by decide)] at name
  rw [optional_rows_iff ((Keyed.lookup_put ..).trans (if_pos rfl))] at columns
  obtain ⟨given, each, completed⟩ := exists_readAs_of_completed columns
  refine ⟨new, given, result, name, each, completed, ?_,
    tableAuditViolations_of_withAudit completed⟩
  intro audit member absent
  rw [completed, filter_withAudit member absent]

/-- A table of notes with these columns. -/
def notes (rows : List Json) : Members := [("columns", .arr rows), ("name", .str "note")]

def bodyRow : Json := .obj [("name", .str "body"), ("type", .str "TEXT")]

/-- Notes that say when they were created. -/
def stampRow : Json := .obj [("type", .str "TIMESTAMP"), ("name", .str "created_at")]

/-- Notes that have a body only pass the audit, and a time of creation that was given, even twice,
is kept as it is. -/
theorem notes_completed :
    (∃ revised new, deals.revise [.addTable (notes [bodyRow])] = .ok revised ∧
      revised.tables = deals.tables ++ [new] ∧
      new.columnNames = ["id", "user_id", "body", "created_at", "updated_at"] ∧
        tableAuditViolations new = []) ∧
    ∃ revised new, deals.revise [.addTable (notes [stampRow, bodyRow, stampRow])] = .ok revised ∧
      revised.tables = deals.tables ++ [new] ∧
      new.columnNames = ["id", "user_id", "created_at", "body", "created_at", "updated_at"] := by
  have unique : Relator.RightUnique (ReadAs Column.decode) :=
    Relator.RightUnique.forall₂ fun _ _ _ first second =>
      Checked.valid.inj (first.symm.trans second)
  obtain ⟨plain, plainDone⟩ := exists_eq_ok_of_isOk (by decide +kernel :
    (deals.revise [.addTable (notes [bodyRow])]).isOk = true)
  obtain ⟨stamped, stampedDone⟩ := exists_eq_ok_of_isOk (by decide +kernel :
    (deals.revise [.addTable (notes [stampRow, bodyRow, stampRow])]).isOk = true)
  have body : Column.decode bodyRow = .valid ⟨"body", .text, true, none, false, false, none⟩ := rfl
  have stamp : Column.decode stampRow = .valid ⟨"created_at", .timestamp, true, none, false,
      false, none⟩ := rfl
  constructor
  · obtain ⟨new, given, rfl, -, each, completed, -, quiet⟩ := revise_addTable rfl plainDone
    obtain rfl := unique each (.cons body .nil)
    exact ⟨_, new, plainDone, rfl, by rw [Table.columnNames, completed]; decide, quiet (by decide)⟩
  · obtain ⟨new, given, rfl, -, each, completed, -⟩ := revise_addTable rfl stampedDone
    obtain rfl := unique each (.cons stamp (.cons body (.cons stamp .nil)))
    exact ⟨_, new, stampedDone, rfl, by rw [Table.columnNames, completed]; decide⟩

end Schema

end Schemata
