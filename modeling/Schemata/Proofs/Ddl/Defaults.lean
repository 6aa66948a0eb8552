import Schemata.Proofs.Ddl.Layout
import Schemata.Proofs.Sql.Rendering

/-! Defaults in the statements that create tables. A word stands only where the type of the column
takes it, and a text stands in quotes. A number stands without quotes in a column of any type but
`BOOLEAN`, so that only numeric columns are sure to hold what was given. -/

namespace Schemata

namespace Ddl

open Sql

variable {column : Column} {text written : String} {value : DefaultValue}

/-- A text that is written as a default in one of the known forms. Words stand in columns of their
own types only, and a number stands as it was given. -/
structure Worded (column : Column) (text written : String) : Prop where
  form : written ∈ canonicalWords ∨ IsLiteral written ∨ IsNumeral Text.isDecimalDigit written.toList
  truth : written ∈ ["TRUE", "FALSE"] → column.type = .boolean
  time : written ∈ ["NOW()", "CURRENT_TIMESTAMP", "CURRENT_DATE"] →
    column.type = .timestamp ∨ column.type = .timestamptz ∨ column.type = .date
  uuid : written = "gen_random_uuid()" → column.type = .uuid
  number : IsNumeral Text.isDecimalDigit written.toList → written = text ∧ column.type ≠ .boolean

/-- A text that is written in a form that the type of the column takes: numbers stand in numeric
columns only, and columns of text get the given text. -/
structure Suits (column : Column) (text written : String) : Prop
    extends Worded column text written where
  numeric : IsNumeral Text.isDecimalDigit written.toList →
    column.type = .integer ∨ column.type = .bigint ∨ column.type = .numeric
  given : column.type = .text ∨ column.type = .varchar → written = "NULL" ∨
    written = literal (unquote text)

/-! ### What the written form tells about the default -/

theorem word_cases (reads : Reads text value) (word : value.sql ∈ canonicalWords) :
    (∃ e, value = .expression e) ∨ ∃ b, value = .boolean b := by
  cases reads with
  | @expression e => exact .inl ⟨e, rfl⟩
  | @boolean b => exact .inr ⟨b, rfl⟩
  | number numeral =>
    exact absurd numeral (not_isNumeral_of_word text (List.mem_append_right _ word))
  | string => exact absurd word (isLiteral_literal _).apart.2

private theorem boolean_of_sql (reads : Reads text value) (word : value.sql ∈ ["TRUE", "FALSE"]) :
    ∃ b, value = .boolean b := by
  have listed : ∀ word ∈ ["TRUE", "FALSE"], word ∈ canonicalWords := by decide
  rcases word_cases reads (listed _ word) with ⟨e, rfl⟩ | boolean
  · cases e <;> exact absurd word (by decide)
  · exact boolean

private theorem time_of_sql (reads : Reads text value)
    (word : value.sql ∈ ["NOW()", "CURRENT_TIMESTAMP", "CURRENT_DATE"]) :
    ∃ e, value = .expression e ∧ e ≠ .null ∧ e ≠ .generatedUuid := by
  have listed : ∀ word ∈ ["NOW()", "CURRENT_TIMESTAMP", "CURRENT_DATE"],
      word ∈ canonicalWords := by decide
  rcases word_cases reads (listed _ word) with ⟨e, rfl⟩ | ⟨b, rfl⟩
  · refine ⟨e, rfl, ?_, ?_⟩ <;> rintro rfl <;> exact absurd word (by decide)
  · cases b <;> exact absurd word (by decide)

theorem expression_of_sql {e : DefaultExpression} (reads : Reads text value)
    (word : value.sql = e.sql) :
    value = .expression e := by
  have listed : e.sql ∈ canonicalWords := by cases e <;> decide
  rcases word_cases reads (word ▸ listed) with ⟨other, rfl⟩ | ⟨b, rfl⟩
  · cases e <;> cases other <;> first | rfl | exact absurd word (by decide)
  · cases e <;> cases b <;> exact absurd word (by decide)

private theorem number_of_sql (reads : Reads text value)
    (numeral : IsNumeral Text.isDecimalDigit value.sql.toList) :
    value = .number text := by
  rcases reads.sql_cases with word | literal | ⟨-, given⟩
  · exact absurd numeral (not_isNumeral_of_word _ (List.mem_append_right _ word))
  · exact absurd numeral literal.apart.1
  · exact reads.of_isNumeral given

/-! ### Columns that take their defaults -/

theorem worded (reads : Reads text value) (admitted : column.Admits value) :
    Worded column text value.sql := by
  constructor
  · rcases reads.sql_cases with word | literal | ⟨same, numeral⟩
    · exact .inl word
    · exact .inr (.inl literal)
    · rw [same]
      exact .inr (.inr numeral)
  · intro word
    obtain ⟨b, rfl⟩ := boolean_of_sql reads word
    exact admitted
  · intro word
    obtain ⟨e, rfl, notNull, notUuid⟩ := time_of_sql reads word
    cases e with
    | null => exact absurd rfl notNull
    | generatedUuid => exact absurd rfl notUuid
    | now | currentTimestamp | currentDate => exact admitted
  · intro word
    obtain rfl : value = .expression .generatedUuid := expression_of_sql reads word
    exact admitted
  · intro numeral
    obtain rfl := number_of_sql reads numeral
    exact ⟨rfl, admitted⟩

/-- A column of text has no word but `NULL`. -/
theorem given_of_text (reads : Reads text value) (admitted : column.Admits value)
    (textual : column.type = .text ∨ column.type = .varchar) :
    value.sql = "NULL" ∨ value.sql = literal (unquote text) ∨
      IsNumeral Text.isDecimalDigit text.toList := by
  have untimely :
      ¬(column.type = .timestamp ∨ column.type = .timestamptz ∨ column.type = .date) := by
    rcases textual with same | same <;> simp [same]
  have unlike : column.type ≠ .uuid ∧ column.type ≠ .boolean := by
    rcases textual with same | same <;> simp [same]
  cases reads with
  | @expression e =>
    cases e with
    | null => exact .inl rfl
    | generatedUuid => exact absurd admitted unlike.1
    | now | currentTimestamp | currentDate => exact absurd admitted untimely
  | boolean => exact absurd admitted unlike.2
  | number numeral => exact .inr (.inr numeral)
  | string => exact .inr (.inl rfl)

theorem suits_iff (reads : Reads text value) (admitted : column.Admits value) :
    Suits column text value.sql ↔ (IsNumeral Text.isDecimalDigit text.toList →
      column.type = .integer ∨ column.type = .bigint ∨ column.type = .numeric) := by
  constructor
  · intro suits numeral
    obtain rfl := reads.of_isNumeral numeral
    exact suits.numeric numeral
  · intro numeric
    have worded := worded reads admitted
    refine ⟨worded, fun numeral => numeric ((worded.number numeral).1 ▸ numeral), fun textual => ?_⟩
    rcases given_of_text reads admitted textual with null | given | numeral
    · exact .inl null
    · exact .inr given
    · have type := numeric numeral
      rcases textual with textual | textual <;> simp [textual] at type

/-! ### Compiled schemas -/

/-- How the default of a column is read. The reading is a value of its own here, so that nothing
computes it. -/
theorem read_of_fits (fits : column.DefaultFits) (given : column.default? = some raw) :
    ∃ value, Reads (Text.strip raw) value ∧ column.Admits value ∧
      renderDefault raw = value.sql := by
  refine ⟨DefaultValue.classify raw, reads_classify raw, ?_, rfl⟩
  simp only [Column.defaultFits_iff, given, Option.some.injEq, forall_eq'] at fits
  assumption

theorem default_infix (given : column.default? = some raw) :
    ["DEFAULT", renderDefault raw] <:+: columnWords column.layout := by
  refine ⟨identifier column.name :: column.type.sql :: column.layout.presence.words,
    if column.layout.unique then ["UNIQUE"] else [], ?_⟩
  simp [columnWords, Column.layout, given]

/-- In a schema that passes the rules each default reaches the statement that creates its table.
There it is a word that the type of its column takes, a quoted text or a number, and it suits the
type unless it is a number for a column that is not numeric. -/
theorem compiled_defaults (limits : Limits) (options : Options) (schema : Schema)
    (passed : (validate (.schema schema) limits).passed = true) :
    ∃ c, compile limits options schema = .ok c ∧ ∀ table ∈ schema.tables,
      createTableStatement table ∈ c.statements ∧
      ∀ column ∈ table.columns, ∀ raw, column.default? = some raw →
        (∃ words, (ColumnClause.ofColumn column).sql = " ".intercalate words ∧
          ["DEFAULT", renderDefault raw] <:+: words) ∧
        Worded column (Text.strip raw) (renderDefault raw) ∧
        (Suits column (Text.strip raw) (renderDefault raw) ↔
          (IsNumeral Text.isDecimalDigit (Text.strip raw).toList →
            column.type = .integer ∨ column.type = .bigint ∨ column.type = .numeric)) := by
  have passes : schema.passes limits = true := passed
  have sound := (schema.passes_iff limits).mp passes
  refine ⟨_, if_pos passes, fun table member => ⟨?_, fun column inside raw given => ?_⟩⟩
  · rw [statements_ofSchema]
    exact List.mem_append_left _ (List.mem_cons_of_mem _ (List.mem_map_of_mem member))
  · obtain ⟨value, reads, admitted, same⟩ :=
      read_of_fits (sound.defaults table member column inside) given
    rw [same]
    exact ⟨⟨_, sql_ofColumn column, same ▸ default_infix given⟩, worded reads admitted,
      suits_iff reads admitted⟩

end Ddl

/-- A code that starts with zeros. -/
def codeColumn : Column := ⟨"code", .text, true, some "007", false, false, none⟩

/-- Deals with such a code. -/
def Schema.coded : Schema where
  version := "1.0.0"
  tables := [
    { name := "deal"
      columns := auditColumns ++ [codeColumn]
      indexes := []
      hints := .none }]
  relationships := []

set_option maxRecDepth 100000 in
theorem Schema.coded_passed : (validate (.schema coded) .standard).passed = true := by
  decide +kernel

theorem codeColumn_mem : ∃ table ∈ Schema.coded.tables, codeColumn ∈ table.columns := by decide

namespace Ddl

open Sql

theorem renderDefault_code : renderDefault "007" = "007" := by decide

theorem isNumeral_code : IsNumeral Text.isDecimalDigit "007".toList :=
  .positive (.whole (isDigits_iff.mpr (by decide)))

/-- The zeros of the code stand without quotes. -/
theorem coded_defaults : (validate (.schema .coded) .standard).passed = true ∧
    ∃ c, compile .standard .standard .coded = .ok c ∧
      (∃ words, (ColumnClause.ofColumn codeColumn).sql = " ".intercalate words ∧
        ["DEFAULT", "007"] <:+: words) ∧ ¬Suits codeColumn "007" "007" := by
  have passed := Schema.coded_passed
  obtain ⟨c, compiled, defaults⟩ := compiled_defaults .standard .standard .coded passed
  obtain ⟨table, member, inside⟩ := codeColumn_mem
  obtain ⟨stands, -, suits⟩ := (defaults table member).2 codeColumn inside "007" rfl
  have stripped : Text.strip "007" = "007" := by decide
  rw [renderDefault_code] at stands
  rw [stripped, renderDefault_code] at suits
  refine ⟨passed, c, compiled, stands, fun fit => ?_⟩
  exact absurd (suits.mp fit isNumeral_code) (by decide)

/-- Not every default suits the type of its column. -/
theorem defaults_not_always_suitable : ¬ ∀ (limits : Limits) (schema : Schema),
    (validate (.schema schema) limits).passed = true →
      ∀ table ∈ schema.tables, ∀ column ∈ table.columns,
      ∀ raw, column.default? = some raw → Suits column (Text.strip raw) (renderDefault raw) := by
  intro always
  obtain ⟨table, member, inside⟩ := codeColumn_mem
  have suits := always .standard .coded Schema.coded_passed table member codeColumn inside "007" rfl
  rw [renderDefault_code] at suits
  exact absurd (suits.numeric isNumeral_code) (by decide)

end Ddl

end Schemata
