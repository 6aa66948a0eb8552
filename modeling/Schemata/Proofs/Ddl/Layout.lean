import Schemata.Proofs.Ddl.Containment
import Schemata.Proofs.Ddl.Orders
import Schemata.Proofs.Sql.Separation

/-! What the statements of a table say about it, and that their written forms say no less. A column
of a `CREATE TABLE` falls into words at the blanks outside quotes, the columns fall apart at the
commas, and the names in the other statements are their quoted pieces. -/

namespace Schemata

open Ddl Sql

/-- A column as its database sees it. A primary key is required and unique by itself, so its flags
do not count. -/
structure ColumnLayout where
  name : String
  type : ColumnType
  presence : Presence
  default? : Option String
  unique : Bool
  reference? : Option Reference
  deriving DecidableEq, Repr

/-- A table as its database sees it. -/
structure TableLayout where
  name : String
  columns : List ColumnLayout
  indexes : List Statement
  deriving DecidableEq, Repr

/-- A schema as its database sees it: without hints and relationships, and with defaults as they are
rendered. -/
structure SchemaLayout where
  version : String
  tables : List TableLayout
  deriving DecidableEq, Repr

def Column.layout (column : Column) : ColumnLayout where
  name := column.name
  type := column.type
  presence :=
    if column.primaryKey then .primaryKey else if column.nullable then .optional else .required
  default? := column.default?.map renderDefault
  unique := column.unique && !column.primaryKey
  reference? := column.reference?

def Table.layout (table : Table) : TableLayout where
  name := table.name
  columns := table.columns.map Column.layout
  indexes := indexStatements table

def Schema.layout (schema : Schema) : SchemaLayout where
  version := schema.version
  tables := schema.tables.map Table.layout

namespace Ddl

/-- What the values of one function tell about the values of another one, lists of them tell too. -/
theorem map_eq_map_of_forall {first second : List α} {f : α → β} {g : α → γ}
    (tells : ∀ a ∈ first, ∀ b ∈ second, f a = f b → g a = g b) (same : first.map f = second.map f) :
    first.map g = second.map g := by
  induction first generalizing second with
  | nil => rw [List.map_eq_nil_iff.mp same.symm]
  | cons a rest ih =>
    obtain ⟨b, others, rfl, head, tail⟩ := List.map_eq_cons_iff.mp same.symm
    rw [List.map_cons, List.map_cons,
      tells a (List.mem_cons_self ..) b (List.mem_cons_self ..) head.symm,
      ih (fun c member d listed =>
        tells c (List.mem_cons_of_mem _ member) d (List.mem_cons_of_mem _ listed))
        tail.symm]

/-! ### The words of a column -/

def Presence.words : Presence → List String
  | .primaryKey => ["PRIMARY", "KEY"]
  | .required => ["NOT", "NULL"]
  | .optional => []

/-- The words that stand for a column in the statement that creates its table. -/
def columnWords (layout : ColumnLayout) : List String :=
  identifier layout.name :: layout.type.sql :: (layout.presence.words
    ++ ((layout.default?.map fun value => ["DEFAULT", value]).getD [] ++ if layout.unique
      then ["UNIQUE"] else []))

theorem sql_ofColumn (column : Column) :
    (ColumnClause.ofColumn column).sql = " ".intercalate (columnWords column.layout) := by
  have written (presence : Presence) (default? : Option String) (unique : Bool) :
      " ".intercalate ([identifier column.name, column.type.sql] ++ presence.sql?.toList
        ++ (default?.map fun value => "DEFAULT " ++ value).toList ++ if unique
          then ["UNIQUE"] else []) =
      " ".intercalate (columnWords ⟨column.name, column.type, presence, default?, unique,
        column.reference?⟩) := by
    refine String.toList_inj.mp ?_
    cases presence <;> cases default? <;> cases unique <;> simp [columnWords,
      Presence.sql?, Presence.words]
  have rendered :
      ((ColumnClause.ofColumn column).default?.map fun value => "DEFAULT " ++ value.sql) =
      column.layout.default?.map fun value => "DEFAULT " ++ value := by
    rw [ColumnClause.ofColumn, Column.layout, Option.map_map, Option.map_map]
    rfl
  rw [ColumnClause.sql, rendered]
  exact written column.layout.presence column.layout.default? column.layout.unique

theorem unbroken_columnWords (separator : c = ' ' ∨ c = ',') (column : Column) :
    ∀ word ∈ columnWords column.layout, Unbroken c word := by
  have fixed {words : List String} (plain : words.all (isUnbroken ' ') = true ∧
      words.all (isUnbroken ',') = true) :
      ∀ word ∈ words, Unbroken c word := by
    intro word member
    rcases separator with rfl | rfl
    · exact .of_words (List.all_eq_true.mp plain.1 word member)
    · exact .of_words (List.all_eq_true.mp plain.2 word member)
  rw [columnWords, List.forall_mem_cons, List.forall_mem_cons, List.forall_mem_append,
    List.forall_mem_append]
  refine ⟨.of_identifier _, ?_, ?_, ?_, ?_⟩
  · have type :
        ∀ word ∈ [column.type.sql], Unbroken c word := fixed (by cases column.type <;> decide)
    exact type _ (List.mem_singleton_self _)
  · exact fixed (by cases column.layout.presence <;> decide)
  · rw [Column.layout]
    cases column.default? with
    | none => exact List.forall_mem_nil _
    | some raw =>
      have default : ∀ word ∈ ["DEFAULT"], Unbroken c word := fixed (by decide)
      refine List.forall_mem_cons.mpr ⟨default _ (List.mem_singleton_self _), ?_⟩
      exact List.forall_mem_singleton.mpr (unbroken_classify separator raw)
  · exact fixed (by cases column.layout.unique <;> decide)

theorem unbroken_column (column : Column) : Unbroken ',' (ColumnClause.ofColumn column).sql := by
  rw [sql_ofColumn]
  exact .intercalate (by decide) (by decide) (unbroken_columnWords (.inr rfl) column)

private theorem columnWords_of_sql_eq {one other : Column}
    (same : (ColumnClause.ofColumn one).sql = (ColumnClause.ofColumn other).sql) :
    columnWords one.layout = columnWords other.layout := by
  rw [sql_ofColumn, sql_ofColumn] at same
  exact (prefixFree_unbroken rfl).intercalate_inj rfl rfl (unbroken_columnWords (.inl rfl) one)
    (unbroken_columnWords (.inl rfl) other) (List.cons_ne_nil _ _) (List.cons_ne_nil _ _) same

theorem identifier_inj (same : identifier first = identifier second) : first = second := by
  have texts : (identifier first).toList ++ [] = (identifier second).toList ++ [] := by rw [same]
  exact identifier_append_inj texts (by simp) (by simp)

private theorem columnType_of_sql_eq {one other : ColumnType} (same : one.sql = other.sql) :
    one = other := by
  cases one <;> cases other <;> first | rfl | exact absurd same (by decide)

/-- What comes behind the presence of a column does not look like one. -/
theorem presence_words_append_inj {one other : Presence} {rest more : List String}
    (next : ∀ word ∈ rest.head?, word = "DEFAULT" ∨ word = "UNIQUE")
    (onward : ∀ word ∈ more.head?, word = "DEFAULT" ∨ word = "UNIQUE")
    (same : one.words ++ rest = other.words ++ more) : one = other ∧ rest = more := by
  cases one <;> cases other <;> simp only [Presence.words, List.cons_append,
    List.nil_append] at same
  case primaryKey.optional => exact absurd (onward "PRIMARY" (same ▸ rfl)) (by decide)
  case required.optional => exact absurd (onward "NOT" (same ▸ rfl)) (by decide)
  case optional.primaryKey => exact absurd (next "PRIMARY" (same ▸ rfl)) (by decide)
  case optional.required => exact absurd (next "NOT" (same ▸ rfl)) (by decide)
  all_goals simp_all

/-- The words of a column tell all of its layout but the reference. -/
theorem eq_of_columnWords {one other : ColumnLayout} (same : columnWords one = columnWords other)
    (reference : one.reference? = other.reference?) : one = other := by
  obtain ⟨name, type, presence, default?, unique, reference?⟩ := one
  obtain ⟨name', type', presence', default?', unique', reference?'⟩ := other
  have next (default? : Option String) (unique : Bool) :
      ∀ word ∈ ((default?.map fun value => ["DEFAULT", value]).getD [] ++
          if unique then ["UNIQUE"] else []).head?,
        word = "DEFAULT" ∨ word = "UNIQUE" := by
    cases default? <;> cases unique <;> simp
  obtain ⟨sameName, onward⟩ := List.cons.inj same
  obtain ⟨sameType, onward⟩ := List.cons.inj onward
  obtain ⟨rfl, last⟩ := presence_words_append_inj (next _ _) (next _ _) onward
  obtain rfl := identifier_inj sameName
  obtain rfl := columnType_of_sql_eq sameType
  obtain rfl : reference? = reference?' := reference
  have rest : default? = default?' ∧ unique = unique' := by
    revert last
    cases default? <;> cases default?' <;> cases unique <;> cases unique' <;> simp
  rw [rest.1, rest.2]

/-! ### Statements that are told by their written forms -/

theorem columnWords_of_createTable_sql {table other : Table} (nonempty : table.columns ≠ [])
    (something : other.columns ≠ []) (same : (createTableStatement table).sql =
      (createTableStatement other).sql) :
    table.name = other.name ∧
      table.columns.map (columnWords ·.layout) = other.columns.map (columnWords ·.layout) := by
  have texts := congrArg String.toList same
  simp only [createTableStatement, Statement.sql, Statement.lines, String.intercalate_cons_cons,
    String.append_assoc, String.toList_append, List.append_cancel_left_eq] at texts
  have name := identifier_append_inj texts (by simp) (by simp)
  rw [name] at texts
  simp only [List.append_cancel_left_eq, List.append_cancel_right_eq, String.toList_inj,
    List.map_map] at texts
  have unbroken (table : Table) : ∀ text ∈ table.columns.map
      ((fun clause : ColumnClause => "  " ++ clause.sql) ∘ ColumnClause.ofColumn),
        Unbroken ',' text := by
    intro text member
    obtain ⟨column, -, rfl⟩ := List.mem_map.mp member
    have start : Unbroken ',' "" := .of_words rfl
    have indented : Unbroken ',' ("" ++ "  " ++ (ColumnClause.ofColumn column).sql) :=
      start.join (by decide) (by decide) (unbroken_column column)
    simpa using indented
  have clauses := (prefixFree_unbroken rfl).intercalate_inj rfl rfl (unbroken table)
    (unbroken other)
    (by simpa using nonempty) (by simpa using something) texts
  refine ⟨name, map_eq_map_of_forall (fun one _ another _ indented => ?_) clauses⟩
  exact columnWords_of_sql_eq (by simpa using indented)

theorem quotes_of_eq (one : OneStatement text quotes) (another : OneStatement other others)
    (same : text = other) : quotes = others := by
  subst same
  obtain ⟨body, read, -, rfl⟩ := one
  obtain ⟨more, again, -, rfl⟩ := another
  rw [read, Option.some.injEq, List.append_cancel_right_eq] at again
  rw [again]

private theorem deleteAction_of_sql_eq {one other : DeleteAction} (same : one.sql = other.sql) :
    one = other := by
  cases one <;> cases other <;> first | rfl | exact absurd same (by decide)

private theorem dropConstraint_sql_inj
    (same : (Statement.dropConstraint table constraint).sql =
      (Statement.dropConstraint other another).sql) :
    Statement.dropConstraint table constraint = .dropConstraint other another := by
  have quotes := quotes_of_eq (dropConstraint_oneStatement table constraint)
    (dropConstraint_oneStatement other another) same
  simpa [Token.name] using quotes

private theorem addForeignKey_sql_inj {target reference : Reference}
    (same : (Statement.addForeignKey table constraint column target).sql =
      (Statement.addForeignKey other another name reference).sql) :
    Statement.addForeignKey table constraint column target =
    .addForeignKey other another name reference := by
  have quotes := quotes_of_eq (addForeignKey_oneStatement table constraint column target)
    (addForeignKey_oneStatement other another name reference) same
  obtain ⟨targetTable, targetColumn, action⟩ := target
  obtain ⟨referenceTable, referenceColumn, reaction⟩ := reference
  simp only [Token.name, List.cons.injEq, Token.quoted.injEq, true_and, and_true] at quotes
  obtain ⟨rfl, rfl, rfl, rfl, rfl⟩ := quotes
  have texts := congrArg String.toList same
  simp only [Statement.sql, Statement.lines, String.intercalate_singleton, String.toList_append,
    List.append_cancel_right_eq, List.append_cancel_left_eq, String.toList_inj] at texts
  rw [deleteAction_of_sql_eq texts]

private theorem createIndex_sql_inj (same : (Statement.createIndex unique name table columns).sql =
      (Statement.createIndex unique' name' table' columns').sql) :
    Statement.createIndex unique name table columns =
    .createIndex unique' name' table' columns' := by
  have quotes := quotes_of_eq (createIndex_oneStatement unique name table columns)
    (createIndex_oneStatement unique' name' table' columns') same
  have names : Function.Injective Token.name := fun _ _ eq => (Token.quoted.inj eq).2
  obtain ⟨sameName, tail⟩ := List.cons.inj quotes
  obtain ⟨sameTable, sameColumns⟩ := List.cons.inj tail
  obtain rfl := names sameName
  obtain rfl := names sameTable
  obtain rfl := names.list_map sameColumns
  have texts := congrArg String.toList same
  cases unique <;> cases unique' <;> first | rfl | simp [Statement.sql, Statement.lines] at texts

theorem foreignKeyStatement_of_sql_eq (first : s ∈ foreignKeyStatements table)
    (second : s' ∈ foreignKeyStatements other) (same : s.sql = s'.sql) : s = s' := by
  obtain ⟨column, ref, -, rfl | rfl⟩ := (mem_foreignKeyStatements_iff table).mp first <;>
    obtain ⟨column', ref', -, rfl | rfl⟩ := (mem_foreignKeyStatements_iff other).mp second
  · exact dropConstraint_sql_inj same
  · have quotes := quotes_of_eq (dropConstraint_oneStatement ..)
      (addForeignKey_oneStatement ..) same
    simp at quotes
  · have quotes := quotes_of_eq (addForeignKey_oneStatement ..)
      (dropConstraint_oneStatement ..) same
    simp at quotes
  · exact addForeignKey_sql_inj same

theorem indexStatement_of_sql_eq (first : s ∈ indexStatements table)
    (second : s' ∈ indexStatements other) (same : s.sql = s'.sql) : s = s' := by
  obtain ⟨unique, name, columns, rfl⟩ := exists_of_mem_indexStatements table first
  obtain ⟨unique', name', columns', rfl⟩ := exists_of_mem_indexStatements other second
  exact createIndex_sql_inj same

/-! ### Layouts -/

/-- The foreign keys of columns, by the names of the columns. -/
def keysOf (columns : List Column) : List (String × Reference) :=
  columns.filterMap fun column => column.reference?.map (column.name, ·)

/-- The foreign key that a statement adds. -/
def Statement.key? : Statement → Option (String × Reference)
  | .addForeignKey _ _ column target => some (column, target)
  | _ => none

theorem foreignKeyStatements_eq (table : Table) :
    foreignKeyStatements table = (keysOf table.columns).flatMap fun key =>
      [.dropConstraint table.name (constraintName table.name key.1),
        .addForeignKey table.name (constraintName table.name key.1) key.1 key.2] := by
  rw [foreignKeyStatements, Table.foreignKeys, keysOf]
  induction table.columns with
  | nil => rfl
  | cons column rest ih =>
    rw [List.filterMap_cons, List.filterMap_cons]
    cases column.reference? with
    | none => exact ih
    | some ref => exact congrArg _ ih

private theorem filterMap_key?_foreignKeyStatements (table : Table) :
    (foreignKeyStatements table).filterMap Statement.key? = keysOf table.columns := by
  rw [foreignKeyStatements_eq, List.filterMap_flatMap]
  exact (List.map_eq_flatMap ▸ List.map_id _)

private theorem keysOf_cons (column : Column) (rest : List Column) : keysOf (column :: rest) =
    (column.reference?.map (column.name, ·)).toList ++ keysOf rest := by
  rw [keysOf, List.filterMap_cons]
  cases column.reference? <;> rfl

private theorem name_of_mem_keysOf (member : (name, ref) ∈ keysOf columns) :
    name ∈ columns.map (·.name) := by
  obtain ⟨column, inside, key⟩ := List.mem_filterMap.mp member
  obtain ⟨_, -, same⟩ := Option.map_eq_some_iff.mp key
  obtain ⟨rfl, -⟩ := Prod.mk.inj same
  exact List.mem_map_of_mem inside

/-- The own key of a column is told from those of later columns, which have other names. -/
theorem own_key_inj {name : String} {one other : Option Reference}
    {rest others : List (String × Reference)} (absent : ∀ ref, (name, ref) ∉ rest)
    (absent_there : ∀ ref, (name, ref) ∉ others)
    (same : (one.map (name, ·)).toList ++ rest = (other.map (name, ·)).toList ++ others) :
    one = other ∧ rest = others := by
  cases one with
  | none =>
    cases other with
    | none => exact ⟨rfl, same⟩
    | some ref =>
      subst same
      exact absurd (List.mem_cons_self ..) (absent ref)
  | some ref =>
    cases other with
    | none =>
      subst same
      exact absurd (List.mem_cons_self ..) (absent_there ref)
    | some ref' =>
      obtain ⟨key, tail⟩ := List.cons.inj same
      exact ⟨congrArg some (Prod.mk.inj key).2, tail⟩

theorem map_layout_eq {columns others : List Column} (distinct : (columns.map (·.name)).Nodup)
    (words : columns.map (columnWords ·.layout) = others.map (columnWords ·.layout))
    (keys : keysOf columns = keysOf others) :
    columns.map Column.layout = others.map Column.layout := by
  induction columns generalizing others with
  | nil => rw [List.map_eq_nil_iff.mp words.symm]
  | cons column rest ih =>
    obtain ⟨other, others, rfl, head, tail⟩ := List.map_eq_cons_iff.mp words.symm
    obtain ⟨fresh, distinct⟩ := List.nodup_cons.mp distinct
    have name : column.name = other.name := identifier_inj (List.cons.inj head.symm).1
    have names : rest.map (·.name) = others.map (·.name) :=
      map_eq_map_of_forall (fun one _ another _ same => identifier_inj (List.cons.inj same).1)
        tail.symm
    have absent (ref : Reference) : (column.name, ref) ∉ keysOf rest :=
      fun later => fresh (name_of_mem_keysOf later)
    have absent_there (ref : Reference) : (column.name, ref) ∉ keysOf others := fun later =>
      fresh (names ▸ name_of_mem_keysOf later)
    rw [keysOf_cons, keysOf_cons, ← name] at keys
    obtain ⟨reference, rest_keys⟩ := own_key_inj absent absent_there keys
    rw [List.map_cons, List.map_cons, eq_of_columnWords head.symm reference,
      ih distinct tail.symm rest_keys]

/-- The statements of a table tell its layout. -/
theorem layout_eq {table other : Table} (distinct : table.columnNames.Nodup)
    (nonempty : table.columns ≠ []) (something : other.columns ≠ [])
    (created : (createTableStatement table).sql = (createTableStatement other).sql)
    (keys : foreignKeyStatements table = foreignKeyStatements other)
    (indexes : indexStatements table = indexStatements other) : table.layout = other.layout := by
  obtain ⟨name, words⟩ := columnWords_of_createTable_sql nonempty something created
  have sameKeys : keysOf table.columns = keysOf other.columns := by
    rw [← filterMap_key?_foreignKeyStatements, ← filterMap_key?_foreignKeyStatements, keys]
  rw [Table.layout, Table.layout, name, map_layout_eq distinct words sameKeys, indexes]

end Ddl
end Schemata
