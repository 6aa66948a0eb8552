import Schemata.Ddl.Alteration
import Schemata.Proofs.Sql.Contained

/-! No table can break out of its statements. Whatever its names and its defaults hold, each
statement is read as one, and its quoted pieces are those names and those defaults, in order. -/

namespace Schemata.Ddl

open Sql

/-- The quoted pieces of a column: its name, and its default where that is a text. -/
def columnQuotes (column : Column) : List Token :=
  .name column.name :: column.default?.toList.flatMap fun raw => (DefaultValue.classify raw).texts

def foreignKeyQuotes (table : String) (key : Column × Reference) : List (List Token) :=
  let constraint := derivedName ["fk", table, key.1.name]
  [[.name table, .name constraint],
    [.name table, .name constraint, .name key.1.name, .name key.2.table, .name key.2.column]]

/-- The quoted pieces of the declared indexes, then of the usual ones whose names are still free. -/
def indexQuotes (table : Table) : List (List Token) :=
  table.indexes.map (fun index =>
    .name index.name :: .name table.name :: index.columns.map Token.name)
    ++ ["user_id", "created_at"].filterMap fun column =>
      let name := derivedName ["idx", table.name, column]
      if (table.indexes.map (·.name)).contains name then none
      else some [.name name, .name table.name, .name column]

def rowSecurityQuotes (table : String) (role principal : List Token) : List (List Token) :=
  let policy := derivedName [table, "user_isolation"]
  [[.name table], [.name policy, .name table],
    [.name policy, .name table] ++ role ++ .name "user_id" :: principal ++
      .name "user_id" :: principal]

def triggerQuotes (table function : String) : List (List Token) :=
  let trigger := derivedName [table, "updated_at"]
  [[.name trigger, .name table], [.name trigger, .name table, .name function]]

/-- The quoted pieces of each statement of a table, for a role and a principal that hold these. -/
def tableQuotes (function : String) (role principal : List Token) (table : Table) :
    List (List Token) :=
  (.name table.name :: table.columns.flatMap columnQuotes)
    :: table.foreignKeys.flatMap (foreignKeyQuotes table.name)
    ++ indexQuotes table
    ++ rowSecurityQuotes table.name role principal
    ++ triggerQuotes table.name function

/-! ## Parts of statements -/

private theorem contained_columnType (type : ColumnType) : Contained type.sql [] := by
  cases type <;> exact contained_words rfl

private theorem contained_deleteAction (action : DeleteAction) : Contained action.sql [] := by
  cases action <;> exact contained_words rfl

/-- The parts of a column in order, each with its quoted pieces. -/
theorem contained_columnParts (column : Column) : List.Forall₂ Contained
    ([identifier column.name, column.type.sql] ++
      (ColumnClause.ofColumn column).presence.sql?.toList
      ++ ((column.default?.map DefaultValue.classify).map fun value => "DEFAULT " ++
        value.sql).toList
      ++ if (ColumnClause.ofColumn column).unique then ["UNIQUE"] else [])
    ([[.name column.name], []] ++ (ColumnClause.ofColumn column).presence.sql?.toList.map (fun _ =>
      [])
      ++ (column.default?.toList.map fun raw => (DefaultValue.classify raw).texts)
      ++ if (ColumnClause.ofColumn column).unique then [[]] else []) := by
  refine List.rel_append (List.rel_append (List.rel_append ?_ ?_) ?_) ?_
  · exact .cons (contained_identifier column.name) (.cons (contained_columnType column.type) .nil)
  · cases (ColumnClause.ofColumn column).presence with
    | primaryKey => exact .cons (contained_words rfl) .nil
    | required => exact .cons (contained_words rfl) .nil
    | optional => exact .nil
  · cases column.default? with
    | none => exact .nil
    | some raw => exact .cons ((contained_classify raw).lead rfl) .nil
  · cases (ColumnClause.ofColumn column).unique with
    | false => exact .nil
    | true => exact .cons (contained_words rfl) .nil

theorem contained_column (column : Column) :
    Contained (ColumnClause.ofColumn column).sql (columnQuotes column) := by
  have joined := Contained.intercalate " " rfl (contained_columnParts column)
  refine (congrArg (Contained _) ?_).mp joined
  cases (ColumnClause.ofColumn column).unique <;> simp [columnQuotes, List.flatMap_def]

variable {policy table role principal : String} {roleQuotes principalQuotes : List Token}

private theorem contained_ownership (inPrincipal : Contained principal principalQuotes) :
    Contained (ownershipPredicate principal) (.name "user_id" :: principalQuotes) :=
  (contained_identifier "user_id").join rfl inPrincipal

private theorem contained_names (names : List String) :
    Contained (", ".intercalate (names.map identifier)) (names.map Token.name) := by
  have each :
      List.Forall₂ Contained (names.map identifier) (names.map fun name => [Token.name name]) := by
    rw [List.forall₂_map_left_iff, List.forall₂_map_right_iff, List.forall₂_same]
    exact fun name _ => contained_identifier name
  have joined := Contained.intercalate ", " rfl each
  rwa [← List.flatMap_def, ← List.map_eq_flatMap] at joined

/-! ## Statements -/

theorem createTable_oneStatement (table : Table) :
    OneStatement (createTableStatement table).sql
      (.name table.name :: table.columns.flatMap columnQuotes) := by
  have each : List.Forall₂ Contained
      ((table.columns.map ColumnClause.ofColumn).map fun column => "  " ++ column.sql)
      (table.columns.map columnQuotes) := by
    rw [List.map_map, List.forall₂_map_left_iff, List.forall₂_map_right_iff, List.forall₂_same]
    exact fun column _ => (contained_column column).lead rfl
  have columns := Contained.intercalate ",\n" rfl each
  rw [← List.flatMap_def] at columns
  have head : Contained ("CREATE TABLE IF NOT EXISTS " ++ identifier table.name ++ " (")
      [.name table.name] := ((contained_identifier table.name).lead rfl).trail rfl
  exact ((head.join rfl columns).trail rfl).close rfl

private theorem addColumn_oneStatement (table : String) (column : Column) :
    OneStatement (Statement.addColumn table (.ofColumn column)).sql
      (.name table :: columnQuotes column) :=
  (((contained_identifier table).lead rfl).join rfl (contained_column column)).close rfl

private theorem dropColumn_oneStatement (table column : String) :
    OneStatement (Statement.dropColumn table column).sql [.name table, .name column] :=
  (((contained_identifier table).lead rfl).join rfl (contained_identifier column)).close rfl

private theorem dropTable_oneStatement (table : String) :
    OneStatement (Statement.dropTable table).sql [.name table] :=
  ((contained_identifier table).lead rfl).close rfl

theorem dropConstraint_oneStatement (table constraint : String) :
    OneStatement (Statement.dropConstraint table constraint).sql [.name table, .name constraint] :=
  (((contained_identifier table).lead rfl).join rfl (contained_identifier constraint)).close rfl

theorem addForeignKey_oneStatement (table constraint column : String) (target : Reference) :
    OneStatement (Statement.addForeignKey table constraint column target).sql
      [.name table, .name constraint, .name column, .name target.table, .name target.column] :=
  (contained_identifier table).lead rfl
    |>.join rfl (contained_identifier constraint)
    |>.join rfl (contained_identifier column)
    |>.join rfl (contained_identifier target.table)
    |>.join rfl (contained_identifier target.column)
    |>.join rfl (contained_deleteAction target.onDelete)
    |>.close rfl

theorem createIndex_oneStatement (unique : Bool) (name table : String) (columns : List String) :
    OneStatement (Statement.createIndex unique name table columns).sql
      (.name name :: .name table :: columns.map Token.name) := by
  have created : ∀ words, isGlue words = true →
      OneStatement (words ++ identifier name ++ " ON " ++ identifier table ++ " ("
        ++ ", ".intercalate (columns.map identifier) ++ ");")
        (.name name :: .name table :: columns.map Token.name) := by
    intro words glue
    exact (contained_identifier name).lead glue
      |>.join rfl (contained_identifier table)
      |>.join rfl (contained_names columns)
      |>.close rfl
  cases unique with
  | false => exact created "CREATE INDEX IF NOT EXISTS " rfl
  | true => exact created "CREATE UNIQUE INDEX IF NOT EXISTS " rfl

private theorem dropPolicy_oneStatement (policy table : String) :
    OneStatement (Statement.dropPolicy policy table).sql [.name policy, .name table] :=
  (((contained_identifier policy).lead rfl).join rfl (contained_identifier table)).close rfl

theorem createPolicy_oneStatement (policy table : String) (inRole : Contained role roleQuotes)
    (inPrincipal : Contained principal principalQuotes) :
    OneStatement (Statement.createPolicy policy table role principal).sql
      ([.name policy, .name table] ++ roleQuotes ++ .name "user_id" :: principalQuotes
        ++ .name "user_id" :: principalQuotes) := by
  have head : Contained ("CREATE POLICY " ++ identifier policy ++ " ON " ++ identifier table)
      [.name policy, .name table] :=
    ((contained_identifier policy).lead rfl).join rfl (contained_identifier table)
  have toRole : Contained ("  TO " ++ role) roleQuotes := inRole.lead rfl
  have owned : Contained (ownershipPredicate principal) (.name "user_id" :: principalQuotes) :=
    contained_ownership inPrincipal
  have seen : Contained ("  USING (" ++ ownershipPredicate principal ++ ")") _ :=
    (owned.lead rfl).trail rfl
  have checked : Contained ("  WITH CHECK (" ++ ownershipPredicate principal) _ := owned.lead rfl
  exact (head.trail rfl).trail rfl
    |>.join rfl toRole
    |>.join rfl seen
    |>.joinClose rfl checked rfl

private theorem enableRowSecurity_oneStatement (table : String) :
    OneStatement (Statement.enableRowSecurity table).sql [.name table] :=
  ((contained_identifier table).lead rfl).close rfl

private theorem dropTrigger_oneStatement (trigger table : String) :
    OneStatement (Statement.dropTrigger trigger table).sql [.name trigger, .name table] :=
  (((contained_identifier trigger).lead rfl).join rfl (contained_identifier table)).close rfl

private theorem createTrigger_oneStatement (trigger table function : String) :
    OneStatement (Statement.createTrigger trigger table function).sql
      [.name trigger, .name table, .name function] := by
  have before : Contained ("    BEFORE UPDATE ON " ++ identifier table) [.name table] :=
    (contained_identifier table).lead rfl
  have executed : Contained ("    EXECUTE FUNCTION " ++ identifier function) [.name function] :=
    (contained_identifier function).lead rfl
  have head : Contained ("CREATE TRIGGER " ++ identifier trigger) [.name trigger] :=
    (contained_identifier trigger).lead rfl
  exact (((head.join rfl before).trail rfl).trail rfl).joinClose rfl executed rfl

/-! ## Tables -/

/-- Every statement of a list is one statement with its own quoted pieces. -/
def EachOne (statements : List Statement) (pieces : List (List Token)) : Prop :=
  List.Forall₂ (fun s quotes => OneStatement s.sql quotes) statements pieces

private theorem foreignKeyStatements_eachOne (table : Table) :
    EachOne (foreignKeyStatements table) (table.foreignKeys.flatMap
      (foreignKeyQuotes table.name)) := by
  refine List.rel_flatMap (List.forall₂_same.mpr fun key _ => rfl) ?_
  rintro ⟨column, target⟩ _ rfl
  exact .cons (dropConstraint_oneStatement table.name _)
    (.cons (addForeignKey_oneStatement table.name _ column.name target) .nil)

private theorem indexStatements_eachOne (table : Table) :
    EachOne (indexStatements table) (indexQuotes table) := by
  refine List.rel_append ?_ (List.rel_filterMap (R := Eq) ?_ (List.forall₂_same.mpr fun column _ =>
    rfl))
  · rw [List.forall₂_map_left_iff, List.forall₂_map_right_iff, List.forall₂_same]
    exact fun index _ => createIndex_oneStatement index.unique index.name table.name index.columns
  · rintro column _ rfl
    dsimp only [usualIndexName]
    split
    · exact .none
    · exact .some (createIndex_oneStatement false _ table.name [column])

private theorem rowSecurityStatements_eachOne {options : Options}
    (inRole : Contained options.role roleQuotes)
    (inPrincipal : Contained options.principal principalQuotes) (table : String) :
    EachOne (rowSecurityStatements options table)
      (rowSecurityQuotes table roleQuotes principalQuotes) :=
  .cons (enableRowSecurity_oneStatement table) (.cons (dropPolicy_oneStatement _ table)
    (.cons (createPolicy_oneStatement _ table inRole inPrincipal) .nil))

private theorem triggerStatements_eachOne (options : Options) (table : String) :
    EachOne (triggerStatements options table) (triggerQuotes table options.updatedAtFunction) :=
  .cons (dropTrigger_oneStatement _ table) (.cons (createTrigger_oneStatement _ table _) .nil)

/-- No table breaks out of its statements: each is read as one statement, and its quoted pieces are
the names and the defaults of the table, in order. The same holds of every change to a column and to
a table. -/
theorem statements_cannot_break_out {options : Options} (inRole : Contained options.role roleQuotes)
    (inPrincipal : Contained options.principal principalQuotes) (table : Table) :
    EachOne (TableDdl.ofTable options table).statements
      (tableQuotes options.updatedAtFunction roleQuotes principalQuotes table)
    ∧ (∀ name column s, addColumn name column = .ok s →
        OneStatement s.sql (.name name :: columnQuotes column))
    ∧ (∀ name column, OneStatement (dropColumn name column).sql [.name name, .name column])
    ∧ ∀ name, OneStatement (dropTable name).sql [.name name] := by
  refine ⟨?_, ?_, dropColumn_oneStatement, dropTable_oneStatement⟩
  · have indexed := List.rel_append (foreignKeyStatements_eachOne table)
      (indexStatements_eachOne table)
    have secured :=
      List.rel_append indexed (rowSecurityStatements_eachOne inRole inPrincipal table.name)
    exact .cons (createTable_oneStatement table)
      (List.rel_append secured (triggerStatements_eachOne options table.name))
  · intro name column s added
    unfold addColumn at added
    split at added
    · cases added
    · obtain rfl := Except.ok.inj added
      exact addColumn_oneStatement name column

/-- Names that a statement could break at, were they not quoted. -/
def sharpOptions : Options where
  principal := "current_setting('app.user')"
  role := "\"Staff\""
  updatedAtFunction := "now\"(); --"

def sharpTable : Table where
  name := "t\"; --"
  columns := [⟨"it's", .text, true, some "'); DROP TABLE x; --", false, false, none⟩]
  indexes := []
  hints := .none

/-- The names and the default of such a table come back as they are. -/
theorem sharp_statements_cannot_break_out :
    Contained sharpOptions.role [.name "Staff"] ∧
      Contained sharpOptions.principal [.text "app.user"]
    ∧ EachOne (TableDdl.ofTable sharpOptions sharpTable).statements [
        [.name "t\"; --", .name "it's", .text "'); DROP TABLE x; --"],
        [.name "idx_t\"; --_user_id", .name "t\"; --", .name "user_id"],
        [.name "idx_t\"; --_created_at", .name "t\"; --", .name "created_at"],
        [.name "t\"; --"],
        [.name "t\"; --_user_isolation", .name "t\"; --"],
        [.name "t\"; --_user_isolation", .name "t\"; --", .name "Staff", .name "user_id",
          .text "app.user",
          .name "user_id", .text "app.user"],
        [.name "t\"; --_updated_at", .name "t\"; --"],
        [.name "t\"; --_updated_at", .name "t\"; --", .name "now\"(); --"]] := by
  have inRole : Contained sharpOptions.role [.name "Staff"] := ⟨_, rfl, ⟨by decide, by decide⟩, rfl⟩
  have inPrincipal : Contained sharpOptions.principal [.text "app.user"] :=
    ⟨_, rfl, ⟨by decide, by decide⟩, rfl⟩
  exact ⟨inRole, inPrincipal, (statements_cannot_break_out inRole inPrincipal sharpTable).1⟩

end Schemata.Ddl
