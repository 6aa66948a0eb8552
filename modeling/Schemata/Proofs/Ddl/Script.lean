import Schemata.Proofs.Ddl.Orders

/-! The script of a compilation, and the result that the script and the run table by table put the
same statements to the database, each in an order that can run. -/

namespace Schemata.Ddl

/-- Parts of a script that are these statements in this order, with nothing between them but blank
lines and comment lines. -/
inductive Interleaved : List String → List Statement → Prop where
  | nil : Interleaved [] []
  | blank (rest : Interleaved parts statements) : Interleaved ("" :: parts) statements
  | comment (line : '\n' ∉ note.toList) (rest : Interleaved parts statements) :
      Interleaved (("-- " ++ note) :: parts) statements
  | statement (rest : Interleaved parts statements) : Interleaved (s.sql :: parts) (s :: statements)

namespace Interleaved

theorem append (first : Interleaved parts statements) (second : Interleaved more others) :
    Interleaved (parts ++ more) (statements ++ others) := by
  induction first with
  | nil => exact second
  | blank _ ih => exact .blank ih
  | comment line _ ih => exact .comment line ih
  | statement _ ih => exact .statement ih

theorem of_statements (statements : List Statement) :
    Interleaved (statements.map Statement.sql) statements := by
  induction statements with
  | nil => exact .nil
  | cons s rest ih => exact .statement ih

end Interleaved

namespace Compilation

theorem stageParts_interleaved {stage : String × List Statement} (title : '\n' ∉ stage.1.toList) :
    Interleaved (stageParts stage) stage.2 := by
  unfold stageParts
  split
  · rename_i empty
    rw [List.isEmpty_iff.mp empty]
    exact .nil
  · exact .blank (.comment title (.of_statements stage.2))

private theorem flatMap_stageParts_interleaved {stages : List (String × List Statement)}
    (titles : ∀ stage ∈ stages, '\n' ∉ stage.1.toList) :
    Interleaved (stages.flatMap stageParts) (stages.flatMap (·.2)) := by
  induction stages with
  | nil => exact .nil
  | cons stage rest ih =>
    obtain ⟨title, titles⟩ := List.forall_mem_cons.mp titles
    exact (stageParts_interleaved title).append (ih titles)

private theorem stage_titles (c : Compilation) : ∀ stage ∈ c.stages, '\n' ∉ stage.1.toList := by
  simp only [stages, List.forall_mem_cons]
  decide

/-- The script is its header and one transaction, which holds the statements in order. -/
theorem text_eq_transaction (c : Compilation) : ∃ body, Interleaved body c.statements ∧
    c.text = "\n".intercalate (c.header ++ ["", "BEGIN;"] ++ body ++ ["COMMIT;", ""]) := by
  have shared : Interleaved (["", "-- Function to auto-update updated_at timestamp"] ++
      c.shared.map Statement.sql) c.shared := by
    have note : "-- Function to auto-update updated_at timestamp" =
        "-- " ++ "Function to auto-update updated_at timestamp" := rfl
    rw [note]
    exact .blank (.comment (by decide) (.of_statements c.shared))
  have body := (shared.append (flatMap_stageParts_interleaved c.stage_titles)).append (.blank .nil)
  rw [List.append_nil] at body
  exact ⟨_, body, by simp [text, parts]⟩

end Compilation

/-- The script and the run table by table hold the same statements. Both start with what the tables
share, keep the statements of every table in order and add no foreign key before its two tables, and
the text of the script is the one order between `BEGIN` and `COMMIT`. -/
theorem compile_orders_agree (limits : Limits) (options : Options) (schema : Schema)
    (passed : (validate (.schema schema) limits).passed = true) :
    ∃ c, compile limits options schema = .ok c ∧
      c.statements.Perm c.statementsByTable ∧
      (∀ name ∈ c.dependencyOrder, (c.forTable? name).isSome = true) ∧
      Arranged options schema c.statements ∧
      Arranged options schema c.statementsByTable ∧
      ∃ body, Interleaved body c.statements ∧
        c.text = "\n".intercalate (c.header ++ ["", "BEGIN;"] ++ body ++ ["COMMIT;", ""]) := by
  have passes : schema.passes limits = true := passed
  have sound := (schema.passes_iff limits).mp passes
  have distinct := sound.tableNames
  obtain ⟨tables, perm, named⟩ := exists_tables_of_dependencyOrder options distinct
  refine ⟨.ofSchema options schema, by rw [compile, if_pos passes], ?_, ?_,
    statements_arranged options sound, statementsByTable_arranged options sound,
    Compilation.text_eq_transaction _⟩
  · rw [statementsByTable_eq_blocks options distinct perm named]
    exact (statements_perm_blocks options schema).trans ((perm.symm.flatMap_right _).cons _)
  · intro name member
    rw [named] at member
    obtain ⟨table, inside, rfl⟩ := List.mem_map.mp member
    rw [forTable?_ofSchema options distinct (perm.mem_iff.mp inside), Option.isSome_some]

theorem deals_orders_agree : (validate (.schema .deals) .standard).passed = true ∧
    ∃ c, compile .standard .standard .deals = .ok c ∧ c.statements.Perm c.statementsByTable ∧
      Arranged .standard .deals c.statements ∧ Arranged .standard .deals c.statementsByTable := by
  have passed := Schema.deals_passed
  obtain ⟨c, compiled, perm, -, staged, byTable, -⟩ :=
    compile_orders_agree .standard .standard .deals passed
  exact ⟨passed, c, compiled, perm, staged, byTable⟩

end Schemata.Ddl
