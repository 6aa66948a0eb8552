import Schemata.Proofs.Provisioning.Effects
import Schemata.Proofs.Sql.Quoting

/-! No run leaves a table behind whose rows are open to all: the statements of a table last
together, and those that close it stand after the one that makes it. -/

namespace Schemata

namespace Ddl

/-! ### The written forms -/

/-- The text of a policy for all access to a table: only rows that belong to the principal are seen,
and only such rows are written. -/
def isolationPolicyText (policy table role principal : String) : String :=
  "\n".intercalate [
    "CREATE POLICY " ++ Sql.identifier policy ++ " ON " ++ Sql.identifier table,
    "  FOR ALL",
    "  TO " ++ role,
    "  USING (\"user_id\" = " ++ principal ++ ")",
    "  WITH CHECK (\"user_id\" = " ++ principal ++ ");"]

private theorem createPolicy_sql (policy table role principal : String) :
    (Statement.createPolicy policy table role principal).sql =
      isolationPolicyText policy table role principal := by
  have user : Sql.identifier "user_id" = "\"user_id\"" := by decide
  have seen : "  USING (" ++ ownershipPredicate principal =
      "  USING (\"user_id\" = " ++ principal := by
    rw [ownershipPredicate, user, ← String.append_assoc, ← String.append_assoc]
    rfl
  have written : "  WITH CHECK (" ++ ownershipPredicate principal =
      "  WITH CHECK (\"user_id\" = " ++ principal := by
    rw [ownershipPredicate, user, ← String.append_assoc, ← String.append_assoc]
    rfl
  rw [Statement.sql, Statement.lines, seen, written, isolationPolicyText]

/-- Texts differ whose first nine characters differ. -/
private theorem append_ne_append {first second : String} (rest other : String)
    (long : 9 ≤ first.toList.length ∧ 9 ≤ second.toList.length)
    (differ : first.toList.take 9 ≠ second.toList.take 9) : first ++ rest ≠ second ++ other := by
  intro same
  have texts := congrArg (fun text => text.toList.take 9) same
  simp only [String.toList_append] at texts
  rw [List.take_append_of_le_length long.1, List.take_append_of_le_length long.2] at texts
  exact differ texts

private theorem createTable_of_sql_eq {s : Statement}
    (same : s.sql = (Statement.createTable table columns).sql) :
    ∃ others, s = .createTable table others := by
  cases s with
  | createTable name others =>
    have texts := congrArg String.toList same
    simp only [Statement.sql, Statement.lines, String.intercalate_cons_cons, String.append_assoc,
      String.toList_append, List.append_cancel_left_eq] at texts
    have named := Sql.identifier_append_inj texts (by simp) (by simp)
    exact ⟨others, by rw [named]⟩
  | createIndex unique name owner listed =>
    have texts := congrArg String.toList same
    cases unique <;> simp [Statement.sql, Statement.lines] at texts
  | _ =>
    simp only [Statement.sql, Statement.lines, String.intercalate_cons_cons,
      String.intercalate_singleton, String.append_assoc] at same
    exact absurd same (append_ne_append _ _ (by decide) (by decide))

/-! ### All or nothing -/

/-- Of every table all statements are there, in their order, or none. -/
def Whole (options : Options) (schema : Schema) (statements : List Statement) : Prop :=
  ∀ table ∈ schema.tables,
    (statements.filter fun s => s.table? = some table.name) =
      (TableDdl.ofTable options table).statements ∨
    (statements.filter fun s => s.table? = some table.name) = []

variable {schema : Schema} {options : Options}

/-- What may last of a run holds every table in full or not at all. -/
theorem whole_of_lasting (sound : schema.Sound limits)
    (lasting : (Compilation.ofSchema options schema).Lasting statements) :
    Whole options schema statements := by
  intro table member
  cases lasting with
  | script => exact .inl ((statements_arranged options sound).grouped table member)
  | @tables front names shared kept =>
    obtain ⟨order, perm, named⟩ := exists_tables_of_dependencyOrder options sound.tableNames
    rw [named] at kept
    obtain ⟨tables, within, rfl⟩ := List.sublist_map_iff.mp kept
    have members : ∀ other ∈ tables, other ∈ schema.tables :=
      fun other inside => perm.mem_iff.mp (within.subset inside)
    have distinct : (tables.map (·.name)).Nodup :=
      (within.map _).nodup ((perm.map _).nodup_iff.mpr sound.tableNames)
    have unowned : (front.filter fun s => s.table? = some table.name) = [] := by
      rcases shared with rfl | rfl <;> simp [Compilation.shared, Statement.table?]
    rw [List.filter_append, unowned, List.nil_append,
      blocks_ofSchema options sound.tableNames members]
    by_cases inside : table ∈ tables
    · exact .inl (filter_blocks (statements_table? options) distinct inside)
    · refine .inr (List.filter_eq_nil_iff.mpr fun s found claimed => inside ?_)
      obtain ⟨other, listed, own⟩ := List.mem_flatMap.mp found
      have named := (statements_table? options other s own).symm.trans (of_decide_eq_true claimed)
      have same := List.inj_on_of_nodup_map sound.tableNames (members other listed) member
        (Option.some.inj named)
      exact same ▸ listed

/-- In the block of a table only the first statement creates something. -/
theorem not_mem_tail_statements {s : Statement} {rest : List Statement}
    (block : (TableDdl.ofTable options table).statements = s :: rest) :
    .createTable name columns ∉ rest := by
  obtain ⟨-, rfl⟩ := List.cons.inj block
  simp [TableDdl.ofTable, mem_foreignKeyStatements_iff, addForeignKeyStatement, indexStatements,
    rowSecurityStatements, triggerStatements]

/-- After the statement that makes a table stand those that close it. -/
theorem closed_after_created (whole : Whole options schema statements)
    (member : table ∈ schema.tables) (split : statements =
      before ++ .createTable table.name columns :: after) :
    Statement.enableRowSecurity table.name ∈ after ∧
      .createPolicy (Sql.derivedName [table.name, "user_isolation"]) table.name options.role
        options.principal ∈ after := by
  have own : Statement.table? (.createTable table.name columns) = some table.name := rfl
  have filtered := whole table member
  rw [split, List.filter_append, List.filter_cons_of_pos (by simp [own])] at filtered
  rcases filtered with full | empty
  · have block : (TableDdl.ofTable options table).statements =
        createTableStatement table :: _ := rfl
    cases earlier : before.filter fun s => s.table? = some table.name with
    | cons head rest =>
      rw [earlier] at full
      exact absurd (List.mem_append_right rest (List.mem_cons_self ..))
        (not_mem_tail_statements full.symm)
    | nil =>
      rw [earlier, List.nil_append, block] at full
      obtain ⟨-, rest⟩ := List.cons.inj full
      have inside : ∀ s ∈ rowSecurityStatements options table.name, s ∈ after := by
        intro s security
        refine (List.mem_filter.mp (rest ▸ ?_ : s ∈ after.filter fun s => s.table? =
          some table.name)).1
        simp [TableDdl.ofTable, security]
      exact ⟨inside _ (by simp [rowSecurityStatements]), inside _ (by simp [rowSecurityStatements])⟩
  · simp at empty

/-- In a sound schema every table has one column for the owner of a row, and it is filled in. -/
theorem owner_clause (sound : schema.Sound limits) (member : table ∈ schema.tables) :
    ∃ clause, ((table.columns.map ColumnClause.ofColumn).filter fun c => c.name =
      "user_id") = [clause] ∧
      clause.type = .uuid ∧ clause.presence = .required := by
  obtain ⟨column, inside, named, required, type⟩ := (sound.audited table member).user
  have notPrimary : column.primaryKey = false := by
    refine Bool.eq_false_iff.mpr fun primary => ?_
    have stray := (sound.audited table member).primary column inside primary
    exact absurd (named.symm.trans stray) (by decide)
  have single : ((table.columns.flatMap fun column => [ColumnClause.ofColumn column]).filter
      fun clause => some clause.name = some column.name) = [ColumnClause.ofColumn column] :=
    Keyed.filter_flatMap (by simp [ColumnClause.ofColumn])
      (sound.names table member).distinct inside
  rw [← List.map_eq_flatMap, named] at single
  refine ⟨.ofColumn column, by simpa using single, type, ?_⟩
  simp [ColumnClause.ofColumn, notPrimary, required]

end Ddl

open Ddl

/-- Whatever an engine refuses of a run, if the statement that makes a table is among those that
last, then it has one column for the owner, a required UUID, and after it stand the statements that
turn on row security and let every access see and write only rows of the principal. -/
theorem lasting_tables_isolated (limits : Limits) (options : Options) (schema : Schema)
    (passed : (validate (.schema schema) limits).passed = true) (execution : Execution)
    (engine : Engine) (log : EngineLog) :
    ∃ c, compile limits options schema = .ok c ∧
      ∃ calls, (execution.execute engine log c).1 = log ++ calls ∧
        ∀ table ∈ schema.tables, ∀ before after,
          (Effects.replay engine c log (.settled []) calls).lasting =
            before ++ (createTableStatement table).sql :: after →
          (∃ clauses clause, createTableStatement table = .createTable table.name clauses ∧
            (clauses.filter fun c => c.name = "user_id") = [clause] ∧
            clause.type = .uuid ∧ clause.presence = .required) ∧
          (Statement.enableRowSecurity table.name).sql ∈ after ∧
          ∃ policy, isolationPolicyText policy table.name options.role
            options.principal ∈ after := by
  have passes : schema.passes limits = true := passed
  have sound := (schema.passes_iff limits).mp passes
  refine ⟨.ofSchema options schema, by rw [compile, if_pos passes], ?_⟩
  obtain ⟨statements, lasting, calls, made, effects⟩ :=
    execute_leads execution engine log (.ofSchema options schema)
  refine ⟨calls, made, fun table member before after split => ?_⟩
  rw [effects, Effects.settled_lasting] at split
  obtain ⟨front, rest, rfl, -, written⟩ := List.map_eq_append_iff.mp split
  obtain ⟨s, later, rfl, text, rfl⟩ := List.map_eq_cons_iff.mp written
  obtain ⟨columns, rfl⟩ := createTable_of_sql_eq text
  obtain ⟨security, policy⟩ := closed_after_created (whole_of_lasting sound lasting) member rfl
  obtain ⟨clause, single⟩ := owner_clause sound member
  have isolation := List.mem_map_of_mem (f := Statement.sql) policy
  rw [createPolicy_sql] at isolation
  exact ⟨⟨_, clause, rfl, single⟩, List.mem_map_of_mem security, _, isolation⟩

/-- A database that refuses nothing keeps both tables, and both are closed. -/
theorem deals_lasting_tables_isolated : (validate (.schema .deals) .standard).passed = true ∧
    ∃ c, compile .standard .standard .deals = .ok c ∧
      ∃ calls, (Execution.perEntity.execute .willing [] c).1 = calls ∧
        ∀ table ∈ Schema.deals.tables, ∃ before after,
          (Effects.replay .willing c [] (.settled []) calls).lasting =
            before ++ (createTableStatement table).sql :: after ∧
          (Statement.enableRowSecurity table.name).sql ∈ after ∧
          ∃ policy, isolationPolicyText policy table.name Options.standard.role
            Options.standard.principal ∈ after := by
  have passed := Schema.deals_passed
  obtain ⟨c, compiled, calls, made, isolated⟩ :=
    lasting_tables_isolated .standard .standard .deals passed .perEntity .willing []
  have known : c = .ofSchema .standard .deals := Except.ok.inj (compiled.symm.trans (if_pos passed))
  have lasts : ∀ table ∈ Schema.deals.tables, (createTableStatement table).sql ∈
      (Effects.replay .willing (.ofSchema .standard .deals) [] (.settled [])
        (Execution.perEntity.execute .willing [] (.ofSchema .standard .deals)).1).lasting := by
    decide +kernel
  refine ⟨passed, c, compiled, calls, made, fun table member => ?_⟩
  have lasting : (createTableStatement table).sql ∈
      (Effects.replay .willing c [] (.settled []) calls).lasting := by
    rw [List.nil_append] at made
    rw [← made, known]
    exact lasts table member
  obtain ⟨before, after, split⟩ := List.append_of_mem lasting
  exact ⟨before, after, split, (isolated table member before after split).2⟩

end Schemata
