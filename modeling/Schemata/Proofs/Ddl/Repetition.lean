import Schemata.Proofs.Ddl.Constraints
import Schemata.Proofs.Ddl.Database
import Schemata.Proofs.Sql.Quoting

/-! Schemas that are put to their database again. In the texts of a compilation each constraint,
policy and trigger comes right after the text that drops what has its name on its table, and tables,
indexes and the function are made only where they are missing, so that a second run is accepted and
changes nothing. -/

namespace Schemata.Ddl

open Sql

/-! ### The written forms -/

/-- A text with these words in front. -/
def Opens (words text : String) : Prop := words.toList <+: text.toList

instance (words text : String) : Decidable (Opens words text) :=
  inferInstanceAs (Decidable (words.toList <+: text.toList))

/-- The words of a statement before the first name in it. -/
def Statement.opening : Statement → String
  | .createFunction _ => "CREATE OR REPLACE FUNCTION "
  | .createTable .. => "CREATE TABLE IF NOT EXISTS "
  | .createIndex unique .. => if unique then "CREATE UNIQUE INDEX IF NOT EXISTS "
      else "CREATE INDEX IF NOT EXISTS "
  | .dropConstraint .. | .addForeignKey .. | .enableRowSecurity _ | .addColumn .. | .dropColumn
      .. => "ALTER TABLE "
  | .dropPolicy .. => "DROP POLICY IF EXISTS "
  | .createPolicy .. => "CREATE POLICY "
  | .dropTrigger .. => "DROP TRIGGER IF EXISTS "
  | .createTrigger .. => "CREATE TRIGGER "
  | .dropTable _ => "DROP TABLE IF EXISTS "

/-- The words that a statement may start with. -/
def openings : List String := [
  "CREATE OR REPLACE FUNCTION ", "CREATE TABLE IF NOT EXISTS ",
    "CREATE UNIQUE INDEX IF NOT EXISTS ",
  "CREATE INDEX IF NOT EXISTS ", "ALTER TABLE ", "DROP POLICY IF EXISTS ", "CREATE POLICY ",
  "DROP TRIGGER IF EXISTS ", "CREATE TRIGGER ", "DROP TABLE IF EXISTS "]

theorem Statement.opening_mem (s : Statement) : s.opening ∈ openings := by
  cases s with
  | createIndex unique => cases unique <;> simp [opening, openings]
  | _ => simp [opening, openings]

theorem Statement.sql_of_lines {s : Statement} (lines : s.lines = first :: next :: rest) :
    s.sql = first ++ "\n" ++ "\n".intercalate (next :: rest) := by
  rw [Statement.sql, lines, String.intercalate_cons_cons]

private theorem exists_sql_eq (s : Statement) :
    ∃ name rest, s.sql = s.opening ++ (identifier name ++ rest) := by
  cases s with
  | createIndex unique name table columns =>
    have words : "CREATE " ++ (if unique then "UNIQUE " else "") ++ "INDEX IF NOT EXISTS " =
        (Statement.createIndex unique name table columns).opening := by
      cases unique <;> rfl
    simp only [Statement.sql, Statement.lines, words, String.append_assoc,
      String.intercalate_cons_append]
    exact ⟨name, _, rfl⟩
  | createTrigger name table function =>
    simp only [Statement.sql, Statement.lines, String.append_assoc, String.intercalate_cons_append,
      String.intercalate_cons_cons]
    exact ⟨name, _, rfl⟩
  | _ =>
    simp only [Statement.sql, Statement.lines, String.append_assoc, String.intercalate_cons_append]
    exact ⟨_, _, rfl⟩

theorem opens_sql_iff {words : String} (plain : '"' ∉ words.toList) (s : Statement) :
    Opens words s.sql ↔ Opens words s.opening := by
  obtain ⟨name, rest, written⟩ := exists_sql_eq s
  have quoted : (identifier name ++ rest).toList =
      '"' :: (doubleQuotes '"' name.toList ++ ['"'] ++ rest.toList) := by
    simp [identifier, enquote]
  rw [Opens, written, String.toList_append, quoted]
  constructor
  · intro opens
    rcases List.prefix_or_prefix_of_prefix opens (List.prefix_append _ _) with
      within | ⟨more, longer⟩
    · exact within
    · rw [← longer, List.prefix_append_right_inj] at opens
      cases more with
      | nil =>
        rw [List.append_nil] at longer
        exact ⟨[], by rw [longer, List.append_nil]⟩
      | cons c more =>
        obtain ⟨rfl, -⟩ := List.cons_prefix_cons.mp opens
        exact absurd (longer ▸ List.mem_append_right _ (List.mem_cons_self ..)) plain
  · intro opens
    exact opens.trans (List.prefix_append _ _)

/-- A text that leaves alone what it would make, if that is there already. -/
structure Tolerant (text : String) : Prop where
  tables : Opens "CREATE TABLE" text → Opens "CREATE TABLE IF NOT EXISTS " text
  indexes : Opens "CREATE INDEX" text → Opens "CREATE INDEX IF NOT EXISTS " text
  uniqueIndexes : Opens "CREATE UNIQUE INDEX" text → Opens "CREATE UNIQUE INDEX IF NOT EXISTS " text
  functions : ¬ Opens "CREATE FUNCTION" text

private theorem opens_of_opens {words more : String} (plain : '"' ∉ words.toList)
    (unquoted : '"' ∉ more.toList) (known : ∀ opening ∈ openings, Opens words opening →
      Opens more opening) (s : Statement) :
    Opens words s.sql → Opens more s.sql := by
  rw [opens_sql_iff plain, opens_sql_iff unquoted]
  exact known _ s.opening_mem

/-- Words that only one kind of statement has in front tell which kind it is. -/
theorem opening_of_opens {words : String} (own : String) (plain : '"' ∉ words.toList)
    (only : ∀ opening ∈ openings, Opens words opening → opening = own) {s : Statement}
    (opens : Opens words s.sql) :
    s.opening = own :=
  only _ s.opening_mem ((opens_sql_iff plain s).mp opens)

private theorem tolerant_sql (s : Statement) : Tolerant s.sql where
  tables := opens_of_opens (by decide) (by decide) (by decide +kernel) s
  indexes := opens_of_opens (by decide) (by decide) (by decide +kernel) s
  uniqueIndexes := opens_of_opens (by decide) (by decide) (by decide +kernel) s
  functions := by
    have none : ∀ opening ∈ openings, ¬ Opens "CREATE FUNCTION" opening := by decide +kernel
    rw [opens_sql_iff (by decide)]
    exact none _ s.opening_mem

/-- Texts in which each that adds a constraint, a policy or a trigger comes right after the one that
drops what has its name on its table. -/
structure Cleared (texts : List String) : Prop where
  constraints : ∀ before text after table rest, texts = before ++ text :: after →
    text = "ALTER TABLE " ++ identifier table ++ " ADD CONSTRAINT " ++ rest →
      ∃ name more earlier, rest = identifier name ++ " FOREIGN KEY (" ++ more ∧ before = earlier ++
        ["ALTER TABLE " ++ identifier table ++ " DROP CONSTRAINT IF EXISTS " ++
          identifier name ++ ";"]
  policies : ∀ before text after, texts = before ++ text :: after → Opens "CREATE POLICY" text →
    ∃ name table more earlier,
      text = "CREATE POLICY " ++ identifier name ++ " ON " ++ identifier table ++ "\n" ++ more ∧
      before = earlier ++ ["DROP POLICY IF EXISTS " ++ identifier name ++ " ON " ++
        identifier table ++ ";"]
  triggers : ∀ before text after, texts = before ++ text :: after → Opens "CREATE TRIGGER" text →
    ∃ name table more earlier,
      text = "CREATE TRIGGER " ++ identifier name ++ "\n" ++
        "    BEFORE UPDATE ON " ++ identifier table ++ "\n" ++ more ∧
      before = earlier ++ ["DROP TRIGGER IF EXISTS " ++ identifier name ++ " ON " ++
        identifier table ++ ";"]

/-- What a statement may say of a table that it alters. -/
def alterations : List String := [
  " DROP CONSTRAINT IF EXISTS ", " ADD CONSTRAINT ", " ENABLE ROW LEVEL SECURITY;",
    " ADD COLUMN IF NOT EXISTS ",
  " DROP COLUMN IF EXISTS "]

/-- A statement that alters a table adds a constraint or says something else of it. -/
theorem alters_cases {s : Statement} (opens : Opens "ALTER TABLE " s.sql) :
    (∃ owner name column target, s = .addForeignKey owner name column target) ∨
      ∃ owner words more, words ∈ alterations ∧ words ≠ " ADD CONSTRAINT " ∧
        s.sql = "ALTER TABLE " ++ (identifier owner ++ (words ++ more)) := by
  have own := opening_of_opens "ALTER TABLE " (by decide) (by decide +kernel) opens
  cases s with
  | addForeignKey owner name column target => exact .inl ⟨owner, name, column, target, rfl⟩
  | dropConstraint owner name =>
    refine .inr ⟨owner, " DROP CONSTRAINT IF EXISTS ", identifier name ++ ";", by
      decide, by decide, ?_⟩
    simp only [Statement.sql, Statement.lines, String.intercalate_singleton, String.append_assoc]
  | enableRowSecurity owner =>
    refine .inr ⟨owner, " ENABLE ROW LEVEL SECURITY;", "", by decide, by decide, ?_⟩
    simp only [Statement.sql, Statement.lines, String.intercalate_singleton, String.append_assoc,
      String.append_empty]
  | addColumn owner column =>
    refine .inr ⟨owner, " ADD COLUMN IF NOT EXISTS ", column.sql ++ ";", by decide, by decide, ?_⟩
    simp only [Statement.sql, Statement.lines, String.intercalate_singleton, String.append_assoc]
  | dropColumn owner column =>
    refine .inr ⟨owner, " DROP COLUMN IF EXISTS ", identifier column ++ ";", by
      decide, by decide, ?_⟩
    simp only [Statement.sql, Statement.lines, String.intercalate_singleton, String.append_assoc]
  | createIndex unique => cases unique <;> simp [Statement.opening] at own
  | _ => simp [Statement.opening] at own

/-- What is said of a table shows where its name ends. -/
theorem alteration_inj {words other : String} (known : words ∈ alterations)
    (listed : other ∈ alterations) (same : "ALTER TABLE " ++ (identifier owner ++ (words ++ more)) =
      "ALTER TABLE " ++ (identifier table ++ (other ++ rest))) :
    owner = table ∧ words = other ∧ more = rest := by
  have texts := congrArg String.toList same
  simp only [String.toList_append, List.append_cancel_left_eq] at texts
  have blank : ∀ words ∈ alterations, words.toList.head? = some ' ' := by decide
  have single {words : String} (known : words ∈ alterations) (cs : List Char) :
      (words.toList ++ cs).head? ≠ some '"' := by
    rw [List.head?_append, blank words known, Option.some_or]
    simp
  obtain rfl := identifier_append_inj texts (single known _) (single listed _)
  rw [List.append_cancel_left_eq] at texts
  have long : ∀ words ∈ alterations, 9 ≤ words.toList.length := by decide
  have apart : ∀ words ∈ alterations, ∀ other ∈ alterations,
      words.toList.take 9 = other.toList.take 9 → words = other := by decide
  have start := congrArg (List.take 9) texts
  rw [List.take_append_of_le_length (long _ known), List.take_append_of_le_length (long _ listed)]
    at start
  obtain rfl := apart words known other listed start
  rw [List.append_cancel_left_eq] at texts
  exact ⟨rfl, rfl, String.toList_inj.mp texts⟩

/-- From its text it is known that a statement adds a constraint, and which one. -/
theorem addForeignKey_of_sql_eq {s : Statement}
    (same : s.sql = "ALTER TABLE " ++ identifier table ++ " ADD CONSTRAINT " ++ rest) :
    ∃ name column target more, s = .addForeignKey table name column target ∧
      rest = identifier name ++ " FOREIGN KEY (" ++ more := by
  rw [String.append_assoc, String.append_assoc] at same
  have opens : Opens "ALTER TABLE " s.sql := by
    rw [same, Opens, String.toList_append]
    exact List.prefix_append _ _
  rcases alters_cases opens with
    ⟨owner, name, column, target, rfl⟩ | ⟨owner, words, more, known, other, written⟩
  · simp only [Statement.sql, Statement.lines, String.intercalate_singleton,
      String.append_assoc] at same
    obtain ⟨rfl, -, rfl⟩ := alteration_inj (by decide) (by decide) same
    exact ⟨name, column, target, _, rfl, String.append_assoc.symm⟩
  · rw [written] at same
    exact absurd (alteration_inj known (by decide) same).2.1 other

private theorem createPolicy_of_opens {s : Statement} (opens : Opens "CREATE POLICY" s.sql) :
    ∃ name table role principal, s = .createPolicy name table role principal := by
  have own := opening_of_opens "CREATE POLICY " (by decide) (by decide +kernel) opens
  cases s with
  | createPolicy name table role principal => exact ⟨name, table, role, principal, rfl⟩
  | createIndex unique => cases unique <;> simp [Statement.opening] at own
  | _ => simp [Statement.opening] at own

private theorem createTrigger_of_opens {s : Statement} (opens : Opens "CREATE TRIGGER" s.sql) :
    ∃ name table function, s = .createTrigger name table function := by
  have own := opening_of_opens "CREATE TRIGGER " (by decide) (by decide +kernel) opens
  cases s with
  | createTrigger name table function => exact ⟨name, table, function, rfl⟩
  | createIndex unique => cases unique <;> simp [Statement.opening] at own
  | _ => simp [Statement.opening] at own

/-- In guarded statements each text comes behind the one that clears its place. -/
theorem Guarded.texts_cleared (guarded : Guarded statements) :
    Cleared (statements.map Statement.sql) := by
  have behind {before after : List String} {text : String}
      (split : statements.map Statement.sql = before ++ text :: after) :
      ∃ s : Statement, text = s.sql ∧
        ∀ drop, s.guard? = some drop → ∃ earlier, before = earlier ++ [drop.sql] := by
    obtain ⟨front, rest, rfl, rfl, tail⟩ := List.map_eq_append_iff.mp split
    obtain ⟨s, later, rfl, rfl, -⟩ := List.map_eq_cons_iff.mp tail
    refine ⟨s, rfl, fun drop guard => ?_⟩
    obtain ⟨earlier, rfl⟩ := guarded.cleared rfl guard
    exact ⟨earlier.map Statement.sql, by rw [List.map_append, List.map_singleton]⟩
  refine ⟨?_, ?_, ?_⟩
  · intro before text after table rest split adds
    obtain ⟨s, rfl, placed⟩ := behind split
    obtain ⟨name, column, target, more, rfl, named⟩ := addForeignKey_of_sql_eq adds
    obtain ⟨earlier, rfl⟩ := placed _ rfl
    exact ⟨name, more, earlier, named, by
      simp only [Statement.sql, Statement.lines, String.intercalate_singleton]⟩
  · intro before text after split opens
    obtain ⟨s, rfl, placed⟩ := behind split
    obtain ⟨name, table, role, principal, rfl⟩ := createPolicy_of_opens opens
    obtain ⟨earlier, rfl⟩ := placed _ rfl
    exact ⟨name, table, _, earlier, Statement.sql_of_lines rfl,
      by simp only [Statement.sql, Statement.lines, String.intercalate_singleton]⟩
  · intro before text after split opens
    obtain ⟨s, rfl, placed⟩ := behind split
    obtain ⟨name, table, function, rfl⟩ := createTrigger_of_opens opens
    obtain ⟨earlier, rfl⟩ := placed _ rfl
    refine ⟨name, table,
      "\n".intercalate ["    FOR EACH ROW", "    EXECUTE FUNCTION " ++
        identifier function ++ "();"],
      earlier, ?_, by simp only [Statement.sql, Statement.lines, String.intercalate_singleton]⟩
    rw [Statement.sql_of_lines rfl, String.intercalate_cons_cons]
    simp only [String.append_assoc]

/-! ### Compilations -/

theorem guarded_foreignKeyStatements (table : Table) : Guarded (foreignKeyStatements table) :=
  .flatMap fun _ _ => .guarded rfl .nil

theorem guarded_indexStatements (table : Table) : Guarded (indexStatements table) := by
  apply Guarded.of_tolerant
  intro s member
  obtain ⟨unique, name, columns, rfl⟩ := exists_of_mem_indexStatements table member
  rfl

theorem guarded_rowSecurityStatements (options : Options) (table : String) :
    Guarded (rowSecurityStatements options table) := .tolerant rfl (.guarded rfl .nil)

theorem guarded_triggerStatements (options : Options) (table : String) :
    Guarded (triggerStatements options table) := .guarded rfl .nil

theorem guarded_table (options : Options) (table : Table) :
    Guarded (TableDdl.ofTable options table).statements := by
  have keys := (guarded_foreignKeyStatements table).append (guarded_indexStatements table)
  have security := keys.append (guarded_rowSecurityStatements options table.name)
  exact .tolerant rfl (security.append (guarded_triggerStatements options table.name))

private theorem guarded_statements (options : Options) (schema : Schema) :
    Guarded (Compilation.ofSchema options schema).statements := by
  rw [statements_ofSchema]
  refine .append (.tolerant rfl (.of_tolerant ?_)) (.append ?_ (.append ?_ (.append ?_ ?_)))
  · intro s member
    obtain ⟨table, -, rfl⟩ := List.mem_map.mp member
    rfl
  · exact .flatMap fun table _ => guarded_foreignKeyStatements table
  · exact .flatMap fun table _ => guarded_indexStatements table
  · exact .flatMap fun table _ => guarded_rowSecurityStatements options table.name
  · exact .flatMap fun table _ => guarded_triggerStatements options table.name

private theorem guarded_statementsByTable (options : Options) (schema : Schema) :
    Guarded (Compilation.ofSchema options schema).statementsByTable := by
  refine .append (.tolerant rfl .nil) (.flatMap fun name _ => ?_)
  cases found : (Compilation.ofSchema options schema).forTable? name with
  | none => exact .nil
  | some statements =>
    obtain ⟨ddl, first, rfl⟩ := Option.map_eq_some_iff.mp found
    obtain ⟨table, -, rfl⟩ := List.mem_map.mp (List.mem_of_find?_eq_some first)
    exact guarded_table options table

/-- Statements that a database can be given again: in their texts each constraint, policy and
trigger comes right after the text that drops it, and all else is made only where it is missing; and
a second run of them is accepted by every database and leaves it as it was after the first. -/
structure Repeatable (statements : List Statement) : Prop where
  cleared : Cleared (statements.map Statement.sql)
  tolerant : ∀ s ∈ statements, Tolerant s.sql
  again : ∀ d : Database, ∃ after, d.run? statements = some after ∧
    after.run? statements = some after

theorem Guarded.repeatable (guarded : Guarded statements) : Repeatable statements where
  cleared := guarded.texts_cleared
  tolerant s _ := tolerant_sql s
  again d := by
    refine ⟨d.furnished statements, Database.run?_of_guarded guarded d, ?_⟩
    rw [Database.run?_of_guarded guarded, Database.furnished_twice]

/-- A schema that passes the rules can be put to its database again and again, as one script, table
by table or one table alone. -/
theorem compile_repeatable (limits : Limits) (options : Options) (schema : Schema)
    (passed : (validate (.schema schema) limits).passed = true) :
    ∃ c, compile limits options schema = .ok c ∧
      (∀ s ∈ c.shared, Opens "CREATE OR REPLACE FUNCTION " s.sql) ∧
      Repeatable c.statements ∧ Repeatable c.statementsByTable ∧
      ∀ table ∈ schema.tables,
        ∃ statements, c.forTable? table.name = some statements ∧ Repeatable statements := by
  have passes : schema.passes limits = true := passed
  have distinct := ((schema.passes_iff limits).mp passes).tableNames
  refine ⟨_, if_pos passes, ?_, (guarded_statements options schema).repeatable,
    (guarded_statementsByTable options schema).repeatable, ?_⟩
  · intro s member
    obtain rfl := List.mem_singleton.mp member
    rw [opens_sql_iff (by decide)]
    exact List.prefix_rfl
  · intro table member
    exact ⟨_, forTable?_ofSchema options distinct member, (guarded_table options table).repeatable⟩

/-- Deals get two constraints of one name; the statements can be given again all the same. -/
theorem lookalikes_repeatable : (validate (.schema .lookalikes) .standard).passed = true ∧
    ∃ c, compile .standard .standard .lookalikes = .ok c ∧ Repeatable c.statements := by
  have passed := Schema.lookalikes_passed
  obtain ⟨c, compiled, -, repeatable, -⟩ :=
    compile_repeatable .standard .standard .lookalikes passed
  exact ⟨passed, c, compiled, repeatable⟩

end Schemata.Ddl
