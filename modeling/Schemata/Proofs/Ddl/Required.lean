import Schemata.Ddl.Alteration
import Schemata.Proofs.Ddl.Defaults

/-! Columns that cannot be null and what they hold when nothing is given. The rules keep the default
`NULL` away from columns that are marked as required, and not from the primary key, which is
required without the mark. A column that is added to a table needs some default, and that may be
`NULL`. -/

namespace Schemata

open Ddl Sql

/-- The default of a column is one of the ways to write `NULL`. -/
def Column.DefaultsToNull (column : Column) : Prop :=
  ∃ raw, column.default? = some raw ∧ Text.lower (Text.strip raw) = "null"

namespace Sql

theorem ofLower?_eq_null_iff : DefaultExpression.ofLower? small = some .null ↔ small = "null" := by
  constructor
  · intro named
    unfold DefaultExpression.ofLower? at named
    split at named
    case h_5 => rfl
    all_goals cases named
  · rintro rfl
    rfl

end Sql

namespace Ddl

/-! ### Defaults that are `NULL` -/

/-- `NULL` is written for the word in any case and with any blanks around it, and for nothing
else. -/
theorem renderDefault_eq_null_iff : renderDefault raw = "NULL" ↔
    Text.lower (Text.strip raw) = "null" := by
  have reads := reads_classify raw
  constructor
  · intro null
    rw [renderDefault] at null
    have read : DefaultValue.classify raw = .expression .null := expression_of_sql reads null
    rw [read] at reads
    cases reads with
    | expression named => exact ofLower?_eq_null_iff.mp named
  · intro null
    have read : DefaultValue.classify raw = .expression .null := by
      simp [DefaultValue.classify, ofLower?_eq_null_iff.mpr null]
    rw [renderDefault, read]
    rfl

private theorem nullable_of_fits {column : Column} (fits : column.DefaultFits)
    (null : column.DefaultsToNull) :
    column.nullable = true := by
  obtain ⟨raw, given, small⟩ := null
  obtain ⟨value, reads, admitted, same⟩ := read_of_fits fits given
  obtain rfl : value = .expression .null :=
    expression_of_sql reads (same ▸ renderDefault_eq_null_iff.mpr small)
  exact admitted

/-! ### Words that stand side by side -/

theorem columnType_sql_apart (type : ColumnType) : type.sql ≠ "KEY" ∧ type.sql ≠ "NULL" := by
  cases type <;> decide

/-- Two words of a clause stand side by side exactly if the layout has that clause. -/
theorem clause_infix_iff (layout : ColumnLayout)
    (clause : (keyword, operand) ∈ [("PRIMARY", "KEY"), ("NOT", "NULL"), ("DEFAULT", "NULL")]) :
    [keyword, operand] <:+: columnWords layout ↔
      layout.presence.words = [keyword, operand] ∨
        (keyword = "DEFAULT" ∧ layout.default? = some operand) := by
  obtain ⟨name, type, presence, default?, unique, -⟩ := layout
  have apart := columnType_sql_apart type
  simp only [List.mem_cons, Prod.mk.injEq, List.not_mem_nil, or_false] at clause
  rcases clause with ⟨rfl, rfl⟩ | ⟨rfl, rfl⟩ | ⟨rfl, rfl⟩ <;>
    cases presence <;> cases default? <;> cases unique <;>
    simp [columnWords, Presence.words, List.infix_cons_iff, List.cons_prefix_cons, apart.1.symm,
      apart.2.symm, eq_comm (a := "NULL")]

/-! ### Columns of a table -/

theorem primary_key_infix_iff (column : Column) :
    ["PRIMARY", "KEY"] <:+: columnWords column.layout ↔ column.primaryKey = true := by
  rw [clause_infix_iff _ (by simp), Column.layout]
  cases column.primaryKey <;> cases column.nullable <;> simp [Presence.words]

theorem not_null_infix_iff (column : Column) : ["NOT", "NULL"] <:+: columnWords column.layout ↔
    column.nullable = false ∧ column.primaryKey = false := by
  rw [clause_infix_iff _ (by simp), Column.layout]
  cases column.primaryKey <;> cases column.nullable <;> simp [Presence.words]

theorem default_null_infix_iff (column : Column) :
    ["DEFAULT", "NULL"] <:+: columnWords column.layout ↔ column.DefaultsToNull := by
  rw [clause_infix_iff _ (by simp), Column.layout]
  cases column.primaryKey <;> cases column.nullable <;>
    simp [Presence.words, Column.DefaultsToNull, renderDefault_eq_null_iff]

theorem addColumn_eq_ok_iff {table : String} {column : Column} {statement : Statement} :
    addColumn table column = .ok statement ↔
      (column.nullable = false → column.primaryKey = false → ∃ raw, column.default? = some raw) ∧
        statement = .addColumn table (.ofColumn column) := by
  unfold addColumn
  cases column.nullable <;> cases column.primaryKey <;> cases column.default? <;> simp [eq_comm]

private theorem sql_addColumn (table : String) (column : Column) :
    (Statement.addColumn table (.ofColumn column)).sql = "ALTER TABLE " ++ identifier table ++
      " ADD COLUMN IF NOT EXISTS " ++ " ".intercalate (columnWords column.layout) ++ ";" := by
  simp [Statement.sql, Statement.lines, sql_ofColumn]

/-- In a schema that passes the rules no column is written with `NOT NULL` and `DEFAULT NULL`, and
with `PRIMARY KEY` and `DEFAULT NULL` just the primary keys are that are marked as optional and have
such a default. A column that is added with `NOT NULL` has a default, which is `NULL` when it was
given as `NULL`. -/
theorem null_defaults (limits : Limits) (options : Options) (schema : Schema) (target : String)
    (added : Column) (statement : Statement) :
    ((validate (.schema schema) limits).passed = true →
      ∃ c, compile limits options schema = .ok c ∧ ∀ table ∈ schema.tables,
        createTableStatement table ∈ c.statements ∧ ∀ column ∈ table.columns,
          (ColumnClause.ofColumn column).sql = " ".intercalate (columnWords column.layout) ∧
          ¬(["NOT", "NULL"] <:+: columnWords column.layout ∧
            ["DEFAULT", "NULL"] <:+: columnWords column.layout) ∧
          (["PRIMARY", "KEY"] <:+: columnWords column.layout ∧
            ["DEFAULT", "NULL"] <:+: columnWords column.layout ↔
            column.primaryKey = true ∧ column.nullable = true ∧ column.DefaultsToNull)) ∧
    (addColumn target added = .ok statement →
      statement.sql = "ALTER TABLE " ++ identifier target ++ " ADD COLUMN IF NOT EXISTS " ++
        " ".intercalate (columnWords added.layout) ++ ";" ∧
      (["NOT", "NULL"] <:+: columnWords added.layout →
        ∃ raw, added.default? = some raw ∧ ["DEFAULT", renderDefault raw] <:+:
          columnWords added.layout) ∧
      (["NOT", "NULL"] <:+: columnWords added.layout ∧
        ["DEFAULT", "NULL"] <:+: columnWords added.layout ↔
        added.nullable = false ∧ added.primaryKey = false ∧ added.DefaultsToNull)) := by
  simp only [not_null_infix_iff, primary_key_infix_iff, default_null_infix_iff]
  refine ⟨fun passed => ?_, fun done => ?_⟩
  · have passes : schema.passes limits = true := passed
    have sound := (schema.passes_iff limits).mp passes
    refine ⟨_, if_pos passes, fun table member =>
      ⟨?_, fun column inside => ⟨sql_ofColumn column, ?_, ?_⟩⟩⟩
    · rw [statements_ofSchema]
      exact List.mem_append_left _ (List.mem_cons_of_mem _ (List.mem_map_of_mem member))
    · rintro ⟨⟨required, -⟩, null⟩
      have optional := nullable_of_fits (sound.defaults table member column inside) null
      rw [required] at optional
      cases optional
    · constructor
      · rintro ⟨key, null⟩
        exact ⟨key, nullable_of_fits (sound.defaults table member column inside) null, null⟩
      · rintro ⟨key, -, null⟩
        exact ⟨key, null⟩
  · obtain ⟨given, rfl⟩ := addColumn_eq_ok_iff.mp done
    refine ⟨sql_addColumn target added, ?_, and_assoc⟩
    rintro ⟨required, secondary⟩
    obtain ⟨raw, default⟩ := given required secondary
    exact ⟨raw, default, default_infix default⟩

end Ddl

/-- Deals whose primary key is marked as optional and is `NULL` when it is not given. -/
def Schema.vacant : Schema where
  version := "1.0.0"
  tables := [
    { name := "deal"
      columns := ⟨"id", .uuid, true, some "null", false, true, none⟩ :: auditColumns.tail
      indexes := []
      hints := .none }]
  relationships := []

set_option maxRecDepth 100000 in
theorem Schema.vacant_passed : (validate (.schema vacant) .standard).passed = true := by
  decide +kernel

/-- A required code that is `NULL` when it is not given. -/
def vacantCode : Column := ⟨"code", .text, false, some " Null", false, false, none⟩

namespace Ddl

theorem addColumn_vacantCode :
    addColumn "deal" vacantCode = .ok (.addColumn "deal" (.ofColumn vacantCode)) := rfl

theorem vacantCode_defaultsToNull : vacantCode.DefaultsToNull := ⟨" Null", rfl, by decide⟩

theorem vacant_id : ∃ table ∈ Schema.vacant.tables, ∃ column ∈ table.columns,
    column.primaryKey = true ∧ column.nullable = true ∧ column.DefaultsToNull :=
  ⟨_, List.mem_cons_self, _, List.mem_cons_self, rfl, rfl, "null", rfl, by decide⟩

/-- The primary key of these deals and the code that is added to them are required and `NULL`. -/
theorem vacant_null_defaults :
    ((validate (.schema .vacant) .standard).passed = true ∧
      ∃ c, compile .standard .standard .vacant = .ok c ∧ ∃ table ∈ Schema.vacant.tables,
        createTableStatement table ∈ c.statements ∧ ∃ column ∈ table.columns,
          ["PRIMARY", "KEY"] <:+: columnWords column.layout ∧
            ["DEFAULT", "NULL"] <:+: columnWords column.layout) ∧
    ∃ statement, addColumn "deal" vacantCode = .ok statement ∧
      ["NOT", "NULL"] <:+: columnWords vacantCode.layout ∧
        ["DEFAULT", "NULL"] <:+: columnWords vacantCode.layout := by
  have ⟨accepted, alters⟩ := null_defaults .standard .standard .vacant "deal" vacantCode
    (.addColumn "deal" (.ofColumn vacantCode))
  obtain ⟨c, compiled, columns⟩ := accepted Schema.vacant_passed
  obtain ⟨table, member, column, inside, vacant⟩ := vacant_id
  obtain ⟨created, written⟩ := columns table member
  obtain ⟨-, -, added⟩ := alters addColumn_vacantCode
  exact ⟨⟨Schema.vacant_passed, c, compiled, table, member, created, column, inside,
    (written column inside).2.2.mpr vacant⟩, _, addColumn_vacantCode,
    added.mpr ⟨rfl, rfl, vacantCode_defaultsToNull⟩⟩

/-- Neither the rules nor the guard of a column that is added keep `NULL` away from all columns that
are required. -/
theorem required_not_always_filled :
    (¬ ∀ (limits : Limits) (schema : Schema), (validate (.schema schema) limits).passed = true →
      ∀ table ∈ schema.tables, ∀ column ∈ table.columns,
        ["PRIMARY", "KEY"] <:+: columnWords column.layout ∨
          ["NOT", "NULL"] <:+: columnWords column.layout →
          ¬["DEFAULT", "NULL"] <:+: columnWords column.layout) ∧
    ¬ ∀ (table : String) (column : Column) (statement : Statement),
      addColumn table column = .ok statement →
      ["NOT", "NULL"] <:+: columnWords column.layout →
        ¬["DEFAULT", "NULL"] <:+: columnWords column.layout := by
  constructor
  · intro filled
    obtain ⟨table, member, column, inside, key, -, null⟩ := vacant_id
    refine filled .standard .vacant Schema.vacant_passed table member column inside (.inl ?_) ?_
    · exact (primary_key_infix_iff column).mpr key
    · exact (default_null_infix_iff column).mpr null
  · intro filled
    refine filled "deal" vacantCode _ addColumn_vacantCode ?_ ?_
    · exact (not_null_infix_iff vacantCode).mpr ⟨rfl, rfl⟩
    · exact (default_null_infix_iff vacantCode).mpr vacantCode_defaultsToNull

end Ddl

end Schemata
