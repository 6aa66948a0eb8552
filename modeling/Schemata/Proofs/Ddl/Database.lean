import Schemata.Proofs.Ddl.Catalog

/-! What a database has of tables, row security, policies and triggers, beside its indexes and
foreign keys. Where each constraint, policy and trigger comes right after the statement that drops
what has its name, and all else is made only where it is missing, the statements are accepted by
every database, and a second run changes nothing. -/

namespace Schemata.Ddl

/-! ### Things with keys -/

section Keys

variable {α κ : Type} [DecidableEq κ] (key : α → κ)

/-- Adds an entry unless its key is taken. -/
def addNew (entries : List α) (entry : α) : List α :=
  if key entry ∈ entries.map key then entries else entries ++ [entry]

/-- Puts an entry behind the entries of all other keys. -/
def renew (entries : List α) (entry : α) : List α :=
  (entries.filter fun old => ¬ key old = key entry) ++ [entry]

variable {key} {known wanted : List α}

private theorem foldl_addNew_of_taken (taken : ∀ entry ∈ wanted, key entry ∈ known.map key) :
    wanted.foldl (addNew key) known = known := by
  induction wanted with
  | nil => rfl
  | cons entry rest ih =>
    obtain ⟨first, later⟩ := List.forall_mem_cons.mp taken
    rw [List.foldl_cons, addNew, if_pos first, ih later]

private theorem taken_of_foldl_addNew (known : List α) :
    known.map key ⊆ (wanted.foldl (addNew key) known).map key ∧
    ∀ entry ∈ wanted, key entry ∈ (wanted.foldl (addNew key) known).map key := by
  induction wanted generalizing known with
  | nil => exact ⟨List.Subset.refl _, List.forall_mem_nil _⟩
  | cons entry rest ih =>
    obtain ⟨kept, added⟩ := ih (addNew key known entry)
    have old : known.map key ⊆ (addNew key known entry).map key := by
      rw [addNew]
      split
      · exact List.Subset.refl _
      · rw [List.map_append]
        exact List.subset_append_left _ _
    have new : key entry ∈ (addNew key known entry).map key := by
      rw [addNew]
      split
      · assumption
      · simp
    exact ⟨fun name member => kept (old member), List.forall_mem_cons.mpr ⟨kept new, added⟩⟩

private theorem foldl_addNew_twice :
    wanted.foldl (addNew key) (wanted.foldl (addNew key) known) = wanted.foldl (addNew key) known :=
  foldl_addNew_of_taken (taken_of_foldl_addNew known).2

private theorem foldl_renew (known : List α) : wanted.foldl (renew key) known =
    (known.filter fun old => key old ∉ wanted.map key) ++ wanted.foldl (renew key) [] := by
  induction wanted generalizing known with
  | nil => simp
  | cons entry rest ih =>
    have kept :
        ((known.filter fun old => ¬ key old = key entry).filter fun old => key old ∉ rest.map key) =
        known.filter fun old => key old ∉ (entry :: rest).map key := by
      rw [List.filter_filter]
      refine List.filter_congr fun old _ => ?_
      simp only [List.map_cons, List.mem_cons, not_or, Bool.decide_and]
      exact Bool.and_comm _ _
    rw [List.foldl_cons, List.foldl_cons, ih, ih (renew key [] entry), renew, renew,
      List.filter_append, kept, List.append_assoc]
    simp

private theorem subset_of_foldl_renew : wanted.foldl (renew key) known ⊆ known ++ wanted := by
  induction wanted generalizing known with
  | nil => simp
  | cons entry rest ih =>
    intro value member
    rcases List.mem_append.mp (ih member) with started | later
    · rcases List.mem_append.mp started with old | new
      · exact List.mem_append_left _ (List.mem_of_mem_filter old)
      · rw [List.mem_singleton.mp new]
        exact List.mem_append_right _ (List.mem_cons_self ..)
    · exact List.mem_append_right _ (List.mem_cons_of_mem _ later)

private theorem foldl_renew_twice :
    wanted.foldl (renew key) (wanted.foldl (renew key) known) = wanted.foldl (renew key) known := by
  have own : ∀ entry ∈ wanted.foldl (renew key) [], key entry ∈ wanted.map key := by
    intro entry member
    exact List.mem_map_of_mem (subset_of_foldl_renew member)
  have gone : ((wanted.foldl (renew key) []).filter fun old => key old ∉ wanted.map key) = [] := by
    refine List.filter_eq_nil_iff.mpr fun entry member => ?_
    simpa using own entry member
  have unchanged : ((known.filter fun old => key old ∉ wanted.map key).filter
      fun old => key old ∉ wanted.map key) = known.filter fun old => key old ∉ wanted.map key := by
    rw [List.filter_filter]
    simp
  rw [foldl_renew known, foldl_renew, List.filter_append, unchanged, gone, List.append_nil]

private theorem not_mem_map_filter {place : κ} :
    place ∉ (known.filter fun old => ¬ key old = place).map key := by
  simp

end Keys

/-! ### Databases -/

/-- A table that a database has, with the columns that it was made with. -/
structure StoredTable where
  name : String
  columns : List ColumnClause
  deriving DecidableEq, Repr

/-- A policy that a database has on a table. -/
structure StoredPolicy where
  name : String
  table : String
  role : String
  principal : String
  deriving DecidableEq, Repr

/-- A trigger that a database has on a table. -/
structure StoredTrigger where
  name : String
  table : String
  function : String
  deriving DecidableEq, Repr

def StoredKey.place (key : StoredKey) : String × String := (key.table, key.name)

def StoredPolicy.place (policy : StoredPolicy) : String × String := (policy.table, policy.name)

def StoredTrigger.place (trigger : StoredTrigger) : String × String := (trigger.table, trigger.name)

/-- What a database has, beside its indexes and foreign keys: functions and tables by name, the
tables whose rows are secured, and policies and triggers by table and name. -/
structure Database extends Catalog where
  functions : List String
  tables : List StoredTable
  secured : List String
  policies : List StoredPolicy
  triggers : List StoredTrigger
  deriving DecidableEq, Repr

namespace Database

/-- Performs a statement of a compilation, if the database accepts it: nothing is made in the place
of a constraint, a policy or a trigger that is there. -/
def perform? (d : Database) : Statement → Option Database
  | .createFunction name => some { d with functions := addNew id d.functions name }
  | .createTable name columns =>
    some { d with tables := addNew StoredTable.name d.tables ⟨name, columns⟩ }
  | .enableRowSecurity table => some { d with secured := addNew id d.secured table }
  | .dropPolicy name table =>
    some { d with policies := d.policies.filter fun old => ¬ old.place = (table, name) }
  | .createPolicy name table role principal =>
    if (table, name) ∈ d.policies.map StoredPolicy.place then none
    else some { d with policies := d.policies ++ [⟨name, table, role, principal⟩] }
  | .dropTrigger name table =>
    some { d with triggers := d.triggers.filter fun old => ¬ old.place = (table, name) }
  | .createTrigger name table function =>
    if (table, name) ∈ d.triggers.map StoredTrigger.place then none
    else some { d with triggers := d.triggers ++ [⟨name, table, function⟩] }
  | s => (d.toCatalog.perform? s).map fun k => { d with toCatalog := k }

/-- Performs statements one after the other, as long as they are accepted. -/
def run? (d : Database) (statements : List Statement) : Option Database :=
  statements.foldlM perform? d

end Database

/-! ### What statements ask for -/

namespace Statement

def function? : Statement → Option String
  | .createFunction name => some name
  | _ => none

def storedTable? : Statement → Option StoredTable
  | .createTable name columns => some ⟨name, columns⟩
  | _ => none

def securedTable? : Statement → Option String
  | .enableRowSecurity table => some table
  | _ => none

def storedKey? : Statement → Option StoredKey
  | .addForeignKey table name column target => some ⟨name, table, column, target⟩
  | _ => none

def policy? : Statement → Option StoredPolicy
  | .createPolicy name table role principal => some ⟨name, table, role, principal⟩
  | _ => none

def trigger? : Statement → Option StoredTrigger
  | .createTrigger name table function => some ⟨name, table, function⟩
  | _ => none

/-- The statement that clears the place of a constraint, a policy or a trigger. -/
def guard? : Statement → Option Statement
  | .addForeignKey table constraint _ _ => some (.dropConstraint table constraint)
  | .createPolicy policy table _ _ => some (.dropPolicy policy table)
  | .createTrigger trigger table _ => some (.dropTrigger trigger table)
  | _ => none

/-- Whether a statement makes what is missing and leaves what is there. -/
def isTolerant : Statement → Bool
  | .createFunction _ | .createTable .. | .createIndex .. | .enableRowSecurity _ => true
  | _ => false

private theorem guard?_of_isTolerant {s : Statement} (tolerant : s.isTolerant = true) :
    s.guard? = none := by
  cases s <;> first | rfl | cases tolerant

private theorem guard?_of_guard? {s drop : Statement} (guard : s.guard? = some drop) :
    drop.guard? = none := by
  cases s <;> cases guard <;> rfl

end Statement

/-- The database that has everything the statements ask for: of tables, functions and indexes the
first of each name, of the rest the last. -/
def Database.furnished (d : Database) (statements : List Statement) : Database where
  indexes := (statements.filterMap Statement.index?).foldl Catalog.makeIndex d.indexes
  keys := (statements.filterMap Statement.storedKey?).foldl Catalog.replaceKey d.keys
  functions := (statements.filterMap Statement.function?).foldl (addNew id) d.functions
  tables := (statements.filterMap Statement.storedTable?).foldl (addNew StoredTable.name) d.tables
  secured := (statements.filterMap Statement.securedTable?).foldl (addNew id) d.secured
  policies := (statements.filterMap Statement.policy?).foldl (renew StoredPolicy.place) d.policies
  triggers := (statements.filterMap Statement.trigger?).foldl (renew StoredTrigger.place) d.triggers

/-- Statements in which each constraint, policy and trigger comes right after the statement that
clears its place. -/
inductive Guarded : List Statement → Prop where
  | nil : Guarded []
  | tolerant (tolerant : s.isTolerant = true) (rest : Guarded statements) :
      Guarded (s :: statements)
  | guarded {s drop : Statement} (guard : s.guard? = some drop) (rest : Guarded statements) :
      Guarded (drop :: s :: statements)

namespace Guarded

theorem append (first : Guarded statements) (second : Guarded others) :
    Guarded (statements ++ others) := by
  induction first with
  | nil => exact second
  | tolerant known _ ih => exact .tolerant known ih
  | guarded guard _ ih => exact .guarded guard ih

theorem flatMap {items : List α} {block : α → List Statement}
    (each : ∀ item ∈ items, Guarded (block item)) :
    Guarded (items.flatMap block) := by
  induction items with
  | nil => exact .nil
  | cons item rest ih =>
    obtain ⟨first, later⟩ := List.forall_mem_cons.mp each
    exact first.append (ih later)

theorem of_tolerant (tolerant : ∀ s ∈ statements, s.isTolerant = true) : Guarded statements := by
  induction statements with
  | nil => exact .nil
  | cons s rest ih =>
    obtain ⟨first, later⟩ := List.forall_mem_cons.mp tolerant
    exact .tolerant first (ih later)

theorem cleared (guarded : Guarded statements) (split : statements = before ++ s :: after)
    (guard : s.guard? = some drop) : ∃ earlier, before = earlier ++ [drop] := by
  induction guarded generalizing before with
  | nil => simp at split
  | tolerant known _ ih =>
    cases before with
    | nil =>
      obtain ⟨rfl, -⟩ := List.cons.inj split
      rw [Statement.guard?_of_isTolerant known] at guard
      cases guard
    | cons head before =>
      obtain ⟨rfl, tail⟩ := List.cons.inj split
      obtain ⟨earlier, rfl⟩ := ih tail
      exact ⟨_ :: earlier, rfl⟩
  | guarded own _ ih =>
    cases before with
    | nil =>
      obtain ⟨rfl, -⟩ := List.cons.inj split
      rw [Statement.guard?_of_guard? own] at guard
      cases guard
    | cons head before =>
      obtain ⟨rfl, tail⟩ := List.cons.inj split
      cases before with
      | nil =>
        obtain ⟨rfl, -⟩ := List.cons.inj tail
        rw [own] at guard
        obtain rfl := Option.some.inj guard
        exact ⟨[], rfl⟩
      | cons next before =>
        obtain ⟨rfl, behind⟩ := List.cons.inj tail
        obtain ⟨earlier, rfl⟩ := ih behind
        exact ⟨_ :: _ :: earlier, rfl⟩

end Guarded

namespace Database

theorem run?_cons (d : Database) (s : Statement) (rest : List Statement) :
    d.run? (s :: rest) = (d.perform? s).bind fun after => after.run? rest := List.foldlM_cons

private theorem perform?_of_isTolerant (d : Database) (tolerant : s.isTolerant = true) :
    d.perform? s = some (d.furnished [s]) := by
  cases s <;> first | rfl | cases tolerant

private theorem run?_of_guard? (d : Database) (guard : s.guard? = some drop) :
    d.run? [drop, s] = some (d.furnished [drop, s]) := by
  rw [run?_cons]
  cases s with
  | addForeignKey table name column target =>
    obtain rfl := Option.some.inj guard
    have free : ¬ ∃ old ∈ Catalog.dropKey d.keys table name, old.table = table ∧
        old.name = name := by
      rintro ⟨old, member, same⟩
      exact of_decide_eq_true (List.mem_filter.mp member).2 same
    have dropped : d.perform? (.dropConstraint table name) =
        some { d with keys := Catalog.dropKey d.keys table name } := rfl
    rw [dropped, Option.bind_some, run?_cons]
    dsimp only [perform?, Catalog.perform?]
    rw [if_neg free]
    rfl
  | createPolicy name table role principal =>
    obtain rfl := Option.some.inj guard
    have free : (table, name) ∉
        (d.policies.filter fun old => ¬ old.place = (table, name)).map StoredPolicy.place :=
      not_mem_map_filter
    rw [perform?, Option.bind_some, run?_cons, perform?, if_neg free]
    rfl
  | createTrigger name table function =>
    obtain rfl := Option.some.inj guard
    have free : (table, name) ∉
        (d.triggers.filter fun old => ¬ old.place = (table, name)).map StoredTrigger.place :=
      not_mem_map_filter
    rw [perform?, Option.bind_some, run?_cons, perform?, if_neg free]
    rfl
  | _ => cases guard

private theorem furnished_append (d : Database) (statements others : List Statement) :
    (d.furnished statements).furnished others = d.furnished (statements ++ others) := by
  simp only [furnished, List.filterMap_append, List.foldl_append]

/-- A database accepts guarded statements, whatever it has, and has all that they ask for
afterwards. -/
theorem run?_of_guarded (guarded : Guarded statements) (d : Database) :
    d.run? statements = some (d.furnished statements) := by
  induction guarded generalizing d with
  | nil => rfl
  | @tolerant s rest known _ ih =>
    rw [run?_cons, perform?_of_isTolerant d known, Option.bind_some, ih, furnished_append]
    rfl
  | @guarded rest s drop guard _ ih =>
    have both : d.run? ([drop, s] ++ rest) = (d.run? [drop, s]).bind fun after => after.run? rest :=
      List.foldlM_append
    have pair := run?_of_guard? d guard
    rw [List.cons_append, List.cons_append, List.nil_append] at both
    rw [both, pair, Option.bind_some, ih, furnished_append]
    rfl

theorem makeIndex_eq : Catalog.makeIndex = addNew StoredIndex.name := rfl

private theorem replaceKey_eq : Catalog.replaceKey = renew StoredKey.place := by
  funext keys key
  simp only [Catalog.replaceKey, Catalog.dropKey, renew, StoredKey.place, Prod.mk.injEq]

theorem furnished_twice (d : Database) (statements : List Statement) :
    (d.furnished statements).furnished statements = d.furnished statements := by
  simp only [furnished, makeIndex_eq, replaceKey_eq, foldl_addNew_twice, foldl_renew_twice]

end Database

end Schemata.Ddl
