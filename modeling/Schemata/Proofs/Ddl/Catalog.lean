import Mathlib.Data.List.Pairwise
import Schemata.Proofs.Ddl.Orders

/-! What a database has of indexes and constraints after the statements of a compilation. Of the
indexes of one name it keeps the first, and of the constraints of one name on a table the last. -/

namespace Schemata.Ddl

/-- An index that a database has. -/
structure StoredIndex where
  name : String
  table : String
  columns : List String
  unique : Bool
  deriving DecidableEq, Repr

/-- A foreign key that a database enforces. -/
structure StoredKey where
  name : String
  table : String
  column : String
  target : Reference
  deriving DecidableEq, Repr

/-- The indexes and the foreign keys of a database. -/
structure Catalog where
  indexes : List StoredIndex
  keys : List StoredKey
  deriving DecidableEq, Repr

namespace Catalog

def empty : Catalog := ⟨[], []⟩

/-- Index names are unique in a database: an index is not made when its name is taken. -/
def makeIndex (indexes : List StoredIndex) (index : StoredIndex) : List StoredIndex :=
  if index.name ∈ indexes.map (·.name) then indexes else indexes ++ [index]

/-- The foreign keys without the one of that name on that table. -/
def dropKey (keys : List StoredKey) (table name : String) : List StoredKey :=
  keys.filter fun key => ¬ (key.table = table ∧ key.name = name)

/-- Performs a statement of a compilation, if the database accepts it: a constraint is not added
when its table has one of that name. Statements of other kinds touch neither indexes nor foreign
keys. -/
def perform? (k : Catalog) : Statement → Option Catalog
  | .createIndex unique name table columns =>
    some { k with indexes := makeIndex k.indexes ⟨name, table, columns, unique⟩ }
  | .dropConstraint table name => some { k with keys := dropKey k.keys table name }
  | .addForeignKey table name column target =>
    if ∃ key ∈ k.keys, key.table = table ∧ key.name = name then none
    else some { k with keys := k.keys ++ [⟨name, table, column, target⟩] }
  | _ => some k

/-- Performs statements one after the other, as long as they are accepted. -/
def run? (k : Catalog) (statements : List Statement) : Option Catalog :=
  statements.foldlM perform? k

theorem run?_append (k : Catalog) (first second : List Statement) :
    k.run? (first ++ second) = (k.run? first).bind fun after => after.run? second :=
  List.foldlM_append

end Catalog

/-- Statements that every database accepts. -/
def Accepted (statements : List Statement) : Prop :=
  ∀ k : Catalog, ∃ after, k.run? statements = some after

namespace Accepted

theorem nil : Accepted [] := fun k => ⟨k, rfl⟩

theorem append (first : Accepted statements) (second : Accepted others) :
    Accepted (statements ++ others) := by
  intro k
  obtain ⟨middle, reached⟩ := first k
  obtain ⟨after, done⟩ := second middle
  exact ⟨after, by rw [Catalog.run?_append, reached, Option.bind_some, done]⟩

private theorem flatMap {items : List α} {block : α → List Statement}
    (each : ∀ item ∈ items, Accepted (block item)) :
    Accepted (items.flatMap block) := by
  induction items with
  | nil => exact nil
  | cons item rest ih =>
    obtain ⟨first, later⟩ := List.forall_mem_cons.mp each
    exact first.append (ih later)

private theorem of_other (other : ∀ s ∈ statements, ∀ table name column target,
    s ≠ .addForeignKey table name column target) : Accepted statements := by
  induction statements with
  | nil => exact nil
  | cons s rest ih =>
    obtain ⟨first, later⟩ := List.forall_mem_cons.mp other
    have single : Accepted [s] := by
      intro k
      cases s with
      | addForeignKey table name column target => exact absurd rfl (first table name column target)
      | _ => exact ⟨_, rfl⟩
    exact single.append (ih later)

end Accepted

/-! ### Indexes -/

/-- The index that a statement asks for. -/
def Statement.index? : Statement → Option StoredIndex
  | .createIndex unique name table columns => some ⟨name, table, columns, unique⟩
  | _ => none

/-- An index that is the first one asked for under its name. -/
def FirstAsked (wanted : List StoredIndex) (index : StoredIndex) : Prop :=
  ∃ before after, wanted = before ++ index :: after ∧ index.name ∉ before.map (·.name)

theorem not_firstAsked_nil : ¬ FirstAsked [] index := by
  rintro ⟨before, after, split, -⟩
  simp at split

theorem firstAsked_cons : FirstAsked (first :: rest) index ↔
    index = first ∨ (index.name ≠ first.name ∧ FirstAsked rest index) := by
  constructor
  · rintro ⟨before, after, split, free⟩
    cases before with
    | nil => exact .inl (List.cons.inj split).1.symm
    | cons head before =>
      obtain ⟨rfl, rfl⟩ := List.cons.inj split
      obtain ⟨other, free⟩ := not_or.mp (mt List.mem_cons.mpr free)
      exact .inr ⟨other, before, after, rfl, free⟩
  · rintro (rfl | ⟨other, before, after, rfl, free⟩)
    · exact ⟨[], rest, rfl, List.not_mem_nil⟩
    · exact ⟨first :: before, after, rfl, List.not_mem_cons_of_ne_of_not_mem other free⟩

theorem firstAsked_append : FirstAsked (wanted ++ more) index ↔
    FirstAsked wanted index ∨ (index.name ∉ wanted.map (·.name) ∧ FirstAsked more index) := by
  induction wanted with
  | nil => simp [not_firstAsked_nil]
  | cons first rest ih =>
    rw [List.cons_append, firstAsked_cons, firstAsked_cons, ih, List.map_cons, List.mem_cons]
    tauto

theorem firstAsked_of_nodup (distinct : (wanted.map StoredIndex.name).Nodup)
    (member : index ∈ wanted) :
    FirstAsked wanted index := by
  obtain ⟨before, after, rfl⟩ := List.append_of_mem member
  refine ⟨before, after, rfl, fun taken => ?_⟩
  rw [List.map_append, List.map_cons] at distinct
  exact (List.nodup_append.mp distinct).2.2 _ taken _ (List.mem_cons_self ..) rfl

theorem FirstAsked.mem (asked : FirstAsked wanted index) : index ∈ wanted := by
  obtain ⟨before, after, rfl, -⟩ := asked
  simp

namespace Catalog

private theorem indexes_of_perform? {k : Catalog} (done : k.perform? s = some after) :
    after.indexes = s.index?.toList.foldl makeIndex k.indexes := by
  cases s with
  | createIndex unique name table columns =>
    obtain rfl := Option.some.inj done
    rfl
  | addForeignKey table name column target =>
    rw [perform?] at done
    split at done
    · cases done
    · obtain rfl := Option.some.inj done
      rfl
  | _ =>
    obtain rfl := Option.some.inj done
    rfl

theorem indexes_of_run? {k : Catalog} (done : k.run? statements = some after) :
    after.indexes = (statements.filterMap Statement.index?).foldl makeIndex k.indexes := by
  induction statements generalizing k with
  | nil =>
    obtain rfl := Option.some.inj done
    rfl
  | cons s rest ih =>
    obtain ⟨middle, first, later⟩ := Option.bind_eq_some_iff.mp done
    rw [ih later, indexes_of_perform? first]
    cases asked : s.index? <;> simp [asked]

/-- Of the indexes of one name the first one that is asked for is made, unless the name was
taken. -/
theorem mem_foldl_makeIndex {indexes wanted : List StoredIndex} {index : StoredIndex} :
    index ∈ wanted.foldl makeIndex indexes ↔
      index ∈ indexes ∨ (index.name ∉ indexes.map (·.name) ∧ FirstAsked wanted index) := by
  induction wanted generalizing indexes with
  | nil => simp [not_firstAsked_nil]
  | cons first rest ih =>
    rw [List.foldl_cons, ih, firstAsked_cons, makeIndex]
    split
    · rename_i taken
      refine or_congr_right (and_congr_right fun free => ?_)
      have other : index.name ≠ first.name := fun same => free (same ▸ taken)
      exact ⟨fun asked => .inr ⟨other, asked⟩,
        fun asked => asked.elim (fun same => absurd (congrArg _ same) other) (·.2)⟩
    · rename_i fresh
      simp only [List.mem_append, List.mem_singleton, List.map_append, List.map_cons, List.map_nil]
      constructor
      · rintro ((old | rfl) | ⟨free, asked⟩)
        · exact .inl old
        · exact .inr ⟨fresh, .inl rfl⟩
        · exact .inr ⟨fun known => free (.inl known), .inr ⟨fun same => free (.inr same), asked⟩⟩
      · rintro (old | ⟨free, rfl | ⟨other, asked⟩⟩)
        · exact .inl (.inl old)
        · exact .inl (.inr rfl)
        · exact .inr ⟨fun known => known.elim free other, asked⟩

end Catalog

/-! ### Foreign keys -/

/-- Two foreign keys that a database cannot have at once. -/
def StoredKey.Rivals (one other : StoredKey) : Prop :=
  one.table = other.table ∧ one.name = other.name

instance : DecidableRel StoredKey.Rivals :=
  fun one other => inferInstanceAs (Decidable (one.table = other.table ∧ one.name = other.name))

instance : Std.Symm (¬ StoredKey.Rivals · ·) :=
  ⟨fun _ _ apart rivals => apart ⟨rivals.1.symm, rivals.2.symm⟩⟩

/-- The foreign keys of a table as a database has them. -/
def storedKeys (table : Table) : List StoredKey :=
  table.foreignKeys.map fun (column, ref) =>
    ⟨constraintName table.name column.name, table.name, column.name, ref⟩

namespace Catalog

/-- A foreign key takes the place of the one of its name. -/
def replaceKey (keys : List StoredKey) (key : StoredKey) : List StoredKey :=
  dropKey keys key.table key.name ++ [key]

private theorem run?_drop_add (k : Catalog) (key : StoredKey) :
    k.run? [.dropConstraint key.table key.name,
      .addForeignKey key.table key.name key.column key.target] =
      some { k with keys := replaceKey k.keys key } := by
  have absent : ¬ ∃ other ∈ dropKey k.keys key.table key.name,
      other.table = key.table ∧ other.name = key.name := by
    rintro ⟨other, member, same⟩
    exact of_decide_eq_true (List.mem_filter.mp member).2 same
  simp only [run?, List.foldlM_cons, List.foldlM_nil, perform?, Option.bind_eq_bind,
    Option.bind_some, if_neg absent]
  rfl

theorem run?_foreignKeyStatements (k : Catalog) (table : Table) :
    k.run? (foreignKeyStatements table) =
      some { k with keys := (storedKeys table).foldl replaceKey k.keys } := by
  rw [foreignKeyStatements, storedKeys]
  induction table.foreignKeys generalizing k with
  | nil => rfl
  | cons key rest ih =>
    obtain ⟨column, ref⟩ := key
    have first :=
      k.run?_drop_add ⟨constraintName table.name column.name, table.name, column.name, ref⟩
    rw [List.flatMap_cons, run?_append, first, Option.bind_some, ih]
    rfl

/-- Of the foreign keys that are put in place one after the other, the last one of each name is in
force, beside the earlier ones of other names. -/
theorem foldl_replaceKey (known keys : List StoredKey) :
    keys.foldl replaceKey known = (known.filter fun old => ∀ key ∈ keys, ¬ old.Rivals key) ++
      keys.pwFilter (¬ StoredKey.Rivals · ·) := by
  induction keys generalizing known with
  | nil => simp
  | cons key rest ih =>
    have kept : (dropKey known key.table key.name).filter (fun old => ∀ other ∈ rest,
        ¬ old.Rivals other) =
        known.filter fun old => ∀ other ∈ key :: rest, ¬ old.Rivals other := by
      rw [dropKey, List.filter_filter]
      refine List.filter_congr fun old _ => ?_
      simp only [List.forall_mem_cons, Bool.decide_and]
      exact Bool.and_comm _ _
    rw [List.foldl_cons, ih, replaceKey, List.filter_append, kept, List.append_assoc]
    congr 1
    by_cases last : ∀ other ∈ rest, ¬ key.Rivals other
    · have lasting : ∀ other ∈ rest.pwFilter (¬ StoredKey.Rivals · ·), ¬ key.Rivals other :=
        fun other member => last other (List.pwFilter_subset rest member)
      have own : [key].filter (fun old => ∀ other ∈ rest, ¬ old.Rivals other) = [key] := by
        rw [List.filter_singleton, decide_eq_true last, cond_true]
      rw [List.pwFilter_cons_of_pos lasting, own, List.singleton_append]
    · have replaced : ¬ ∀ other ∈ rest.pwFilter (¬ StoredKey.Rivals · ·), ¬ key.Rivals other := by
        refine fun lasting => last ((List.forall_mem_pwFilter ?_ key rest).mp lasting)
        rintro one two three apart
        by_contra both
        obtain ⟨first, second⟩ := not_or.mp both
        rw [not_not] at first second
        exact apart ⟨first.1.trans second.1, first.2.trans second.2⟩
      have gone : [key].filter (fun old => ∀ other ∈ rest, ¬ old.Rivals other) = [] := by
        rw [List.filter_singleton, decide_eq_false last, cond_false]
      rw [List.pwFilter_cons_of_neg replaced, gone, List.nil_append]

end Catalog

/-- The statements of a compilation are accepted: every constraint is dropped before it is added. -/
theorem statements_accepted (options : Options) (schema : Schema) :
    Accepted (Compilation.ofSchema options schema).statements := by
  rw [statements_ofSchema]
  refine .append (.of_other ?_) (.append (.flatMap fun table _ k => ?_)
    (.append (.flatMap fun table _ => ?_)
    (.append (.flatMap fun table _ => ?_) (.flatMap fun table _ => ?_))))
  · simp [createTableStatement]
  · exact ⟨_, k.run?_foreignKeyStatements table⟩
  · refine .of_other fun s member => ?_
    obtain ⟨unique, name, columns, rfl⟩ := exists_of_mem_indexStatements table member
    simp
  · exact .of_other (by simp [rowSecurityStatements])
  · exact .of_other (by simp [triggerStatements])

end Schemata.Ddl
