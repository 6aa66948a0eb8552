import Schemata.Proofs.Refinement.Objects
import Schemata.Proofs.Refinement.Steps
import Schemata.Proofs.Schema.Reading

/-! Rows that no change tells apart. Two rows are alike when they read alike, before and after every
change that is made to both; columns and lists of columns come first. -/

namespace Schemata

open Checked Decode

variable {a b changes : Members}

/-! ### Members that read alike -/

/-- A member that must be there reads alike after changes where it has read alike before. -/
theorem Decode.required_merge_congr {decode : Json → Checked α} (changes : Members)
    (alike : required a name decode = required b name decode) :
    required (a.merge changes) name decode = required (b.merge changes) name decode := by
  have read (members : Members) : required (members.merge changes) name decode =
      (changes.reverse.lookup name).elim (required members name decode)
        fun value => (decode value).under (.key name) := by
    rw [required, Keyed.lookup_merge]
    cases changes.reverse.lookup name <;> rfl
  rw [read, read, alike]

/-- So does one that may be left out, when nothing is put under a later spelling without the first
one. -/
theorem Decode.optional_merge_congr {decode : Json → Checked α} {first : String}
    {others : List String} (changes : Members)
    (spelled : ∀ name ∈ others, changes.lookup first = none → changes.lookup name = none)
    (alike : optional a (first :: others) absent decode =
      optional b (first :: others) absent decode) :
    optional (a.merge changes) (first :: others) absent decode =
      optional (b.merge changes) (first :: others) absent decode := by
  have read (members : Members) : optional (members.merge changes) (first :: others) absent decode =
      (changes.reverse.lookup first).elim (optional members (first :: others) absent decode)
        fun value => (decode value).under (.key first) := by
    cases given : changes.reverse.lookup first with
    | some value =>
      exact optional_of_lookup (by rw [Keyed.lookup_merge, given, Option.some_or]) _ _ _
    | none =>
      refine optional_congr (fun name listed => ?_) _ _
      have missing : changes.reverse.lookup name = none := by
        rcases List.mem_cons.mp listed with rfl | other
        · exact given
        · exact Keyed.lookup_reverse_eq_none_iff.mpr
            (spelled name other (Keyed.lookup_reverse_eq_none_iff.mp given))
      rw [Keyed.lookup_merge, missing, Option.none_or]
  rw [read, read, alike]

theorem Decode.optional_put {decode : Json → Checked α} (other : key ∉ spellings) (value : Json) :
    optional (a.put key value) spellings absent decode = optional a spellings absent decode := by
  refine optional_congr (fun name listed => ?_) _ _
  have apart : name ≠ key := fun equal => other (equal ▸ listed)
  rw [Keyed.lookup_put, if_neg apart]

/-! ### Columns -/

/-- Whether changes of a column that give the second spelling of its key flag give the first one
too. -/
def Change.plainKey : Change → Bool
  | modifyColumn _ _ changes => (changes.lookup "primaryKey").isSome ||
      (changes.lookup "primary_key").isNone
  | _ => true

/-- Columns that have the same name and read alike in all their fields. -/
structure Column.Alike (a b : Members) : Prop where
  name : a.lookup "name" = b.lookup "name"
  type : required a "type" ColumnType.decode = required b "type" ColumnType.decode
  nullable : optional a ["nullable"] true boolean = optional b ["nullable"] true boolean
  default : optional a ["default"] none decodeDefault = optional b ["default"] none decodeDefault
  unique : optional a ["unique"] false boolean = optional b ["unique"] false boolean
  primaryKey : optional a ["primaryKey", "primary_key"] false boolean =
    optional b ["primaryKey", "primary_key"] false boolean
  references : optional a ["references"] none (Decode.nullable Reference.decode) =
    optional b ["references"] none (Decode.nullable Reference.decode)

namespace Column.Alike

theorem read (alike : Alike a b) : ofMembers a = ofMembers b := by
  simp only [ofMembers, required_congr alike.name, alike.type, alike.nullable,
    alike.default, alike.unique, alike.primaryKey, alike.references]

theorem of_read (left : ofMembers a = .valid column) (right : ofMembers b = .valid column) :
    Alike a b := by
  obtain ⟨nameA, typeA, nullableA, defaultA, uniqueA, primaryKeyA, referencesA⟩ :=
    ofMembers_eq_valid_iff.mp left
  obtain ⟨nameB, typeB, nullableB, defaultB, uniqueB, primaryKeyB, referencesB⟩ :=
    ofMembers_eq_valid_iff.mp right
  rw [required_string_eq_valid_iff] at nameA nameB
  exact ⟨nameA.trans nameB.symm, typeA.trans typeB.symm, nullableA.trans nullableB.symm,
    defaultA.trans defaultB.symm, uniqueA.trans uniqueB.symm, primaryKeyA.trans primaryKeyB.symm,
    referencesA.trans referencesB.symm⟩

theorem merge (alike : Alike a b) (plain : (Change.modifyColumn table column changes).plainKey =
    true) :
    Alike (a.merge changes) (b.merge changes) where
  name := Keyed.lookup_merge_congr changes alike.name
  type := required_merge_congr changes alike.type
  nullable := optional_merge_congr changes (by simp) alike.nullable
  default := optional_merge_congr changes (by simp) alike.default
  unique := optional_merge_congr changes (by simp) alike.unique
  primaryKey := by
    refine optional_merge_congr changes (fun spelling other missing => ?_) alike.primaryKey
    simpa [Change.plainKey, missing, List.mem_singleton.mp other] using plain
  references := optional_merge_congr changes (by simp) alike.references

end Column.Alike

/-! ### Rows and lists of rows -/

namespace Edit

/-- The same row, or two objects with members that are alike. -/
inductive RowAlike (alike : Members → Members → Prop) : Json → Json → Prop where
  | same (row : Json) : RowAlike alike row row
  | members {p q : Json} {a b : Members} (left : p.members? = some a) (right : q.members? = some b)
    (each : alike a b) : RowAlike alike p q

variable {alike : Members → Members → Prop} {p q : Json} {ps qs : List Json}

namespace RowAlike

theorem isObject_eq (row : RowAlike alike p q) : isObject p = isObject q := by
  cases row with
  | same => rfl
  | members left right => rw [isObject, isObject, left, right]; rfl

theorem member_eq (row : RowAlike alike p q) (keyed : ∀ {a b},
    alike a b → a.lookup key = b.lookup key) :
    p.member key = q.member key := by
  cases row with
  | same => rfl
  | members left right each => rw [member_of_members? left, member_of_members? right, keyed each]

theorem record_eq {ofMembers : Members → Checked α} (row : RowAlike alike p q)
    (read : ∀ {a b}, alike a b → ofMembers a = ofMembers b) :
    record name ofMembers p = record name ofMembers q := by
  cases row with
  | same => rfl
  | members left right each => simp only [record, left, right, read each]

/-- Two rows that read as the same record are alike, when what they hold is. -/
theorem of_record {ofMembers : Members → Checked α} (left : record name ofMembers p = .valid value)
    (right : record name ofMembers q = .valid value)
    (each : ∀ {a b}, ofMembers a = .valid value → ofMembers b = .valid value → alike a b) :
    RowAlike alike p q := by
  obtain ⟨_, objectLeft, readLeft⟩ := record_eq_valid_iff.mp left
  obtain ⟨_, objectRight, readRight⟩ := record_eq_valid_iff.mp right
  exact .members objectLeft objectRight (each readLeft readRight)

theorem forall₂_refl (rows : List Json) : List.Forall₂ (RowAlike alike) rows rows :=
  List.forall₂_same.mpr fun row _ => .same row

end RowAlike

theorem forall₂_set {rel : α → β → Prop} {a : α} {b : β}
    (rows : List.Forall₂ rel as bs) (new : rel a b) (place : Nat) :
    List.Forall₂ rel (as.set place a) (bs.set place b) := by
  induction rows generalizing place with
  | nil => exact .nil
  | cons first rest ih =>
    cases place with
    | zero => exact .cons new rest
    | succ place => exact .cons first (ih place)

theorem forall₂_eraseIdx {rel : α → β → Prop} (rows : List.Forall₂ rel as bs) (place : Nat) :
    List.Forall₂ rel (as.eraseIdx place) (bs.eraseIdx place) := by
  induction rows generalizing place with
  | nil => exact .nil
  | cons first rest ih =>
    cases place with
    | zero => exact rest
    | succ place => exact .cons first (ih place)

/-- What is found in one of two lists is found in the same place in the other one. -/
theorem findNamed_alike (keyed : ∀ {a b}, alike a b → a.lookup "name" = b.lookup "name")
    (rows : List.Forall₂ (RowAlike alike) ps qs)
    (found : findNamed name start qs = .ok (some (place, q))) :
    ∃ p, findNamed name start ps = .ok (some (place, p)) ∧ RowAlike alike p q := by
  induction rows generalizing start with
  | nil => cases found
  | @cons p' q' ps qs first rest ih =>
    rw [findNamed] at found ⊢
    rw [first.isObject_eq, first.member_eq keyed]
    split at found
    · cases found
    split at found
    · rename_i object named
      cases found
      exact ⟨p', by rw [if_neg object, if_pos named], first⟩
    · rename_i object other
      obtain ⟨p, later, row⟩ := ih found
      exact ⟨p, by rw [if_neg object, if_neg other, later], row⟩

theorem keepRows_alike (tested : ∀ {p q}, RowAlike alike p q → test p = test q)
    (rows : List.Forall₂ (RowAlike alike) ps qs) (kept : keepRows test qs = .ok others) :
    ∃ rest, keepRows test ps = .ok rest ∧ List.Forall₂ (RowAlike alike) rest others := by
  induction rows generalizing others with
  | nil => exact ⟨[], rfl, by cases kept; exact .nil⟩
  | @cons p q ps qs first _ ih =>
    rw [keepRows] at kept ⊢
    rw [first.isObject_eq, tested first]
    split at kept
    · cases kept
    rename_i object
    obtain ⟨remaining, later, made⟩ := bind_eq_ok_iff.mp kept
    obtain ⟨rest, done, alikes⟩ := ih later
    refine ⟨if test q = true then p :: rest else rest, ?_, ?_⟩
    · rw [if_neg object]
      exact bind_eq_ok_iff.mpr ⟨rest, done, rfl⟩
    · rw [← Except.ok.inj made]
      split
      · exact .cons first alikes
      · exact alikes

/-- Rows that read one by one as the same records are alike, when each two are. -/
theorem forall₂_of_read {decode : Json → Checked α} {rel : Json → Json → Prop} {read : List α}
    (left : List.Forall₂ (fun p a => decode p = .valid a) ps read)
    (right : List.Forall₂ (fun q a => decode q = .valid a) qs read)
    (each : ∀ {p q a}, decode p = .valid a → decode q = .valid a → rel p q) :
    List.Forall₂ rel ps qs := by
  induction left generalizing qs with
  | nil =>
    cases right
    exact .nil
  | cons first _ ih =>
    cases right with
    | cons other rest => exact .cons (each first other) (ih rest)

/-- Rows that are alike read as records that agree, when each two do. -/
theorem forall₂_read {decode : Json → Checked α} {rel : Json → Json → Prop} {agree : α → α → Prop}
    {read : List α} (rows : List.Forall₂ rel ps qs)
    (right : List.Forall₂ (fun q a => decode q = .valid a) qs read)
    (each : ∀ {p q b}, rel p q → decode q = .valid b → ∃ a, decode p = .valid a ∧ agree a b) :
    ∃ others, List.Forall₂ (fun p a => decode p = .valid a) ps others ∧
      List.Forall₂ agree others read := by
  induction rows generalizing read with
  | nil =>
    cases right
    exact ⟨[], .nil, .nil⟩
  | cons row _ ih =>
    cases right with
    | cons first rest =>
      obtain ⟨a, valid, agrees⟩ := each row first
      obtain ⟨others, readOthers, agreeOthers⟩ := ih rest
      exact ⟨a :: others, .cons valid readOthers, .cons agrees agreeOthers⟩

end Edit

/-! ### Lists of columns -/

/-- Columns of two tables that are the same, or lists of columns that are alike. -/
inductive Column.ListsAlike : Option Json → Option Json → Prop where
  | same (columns? : Option Json) : ListsAlike columns? columns?
  | rows {x y : Option Json} {ps qs : List Json} (left : x.getD (.arr []) = .arr ps)
    (right : y.getD (.arr []) = .arr qs) (each : List.Forall₂ (Edit.RowAlike Alike) ps qs) :
      ListsAlike x y

namespace Column.ListsAlike

open Edit

theorem read (columns : ListsAlike (a.lookup "columns") (b.lookup "columns")) :
    optional a ["columns"] [] (list Column.decode) =
      optional b ["columns"] [] (list Column.decode) := by
  rw [optional_list, optional_list]
  generalize a.lookup "columns" = x at columns ⊢
  generalize b.lookup "columns" = y at columns ⊢
  cases columns with
  | same => rfl
  | rows left right each =>
    have alike : List.Forall₂ (fun p q => Column.decode p = Column.decode q) _ _ :=
      each.imp fun _ _ row => row.record_eq Alike.read
    rw [left, right, list_congr alike]

theorem of_read (left : optional a ["columns"] [] (list Column.decode) = .valid columns)
    (right : optional b ["columns"] [] (list Column.decode) = .valid columns) :
    ListsAlike (a.lookup "columns") (b.lookup "columns") := by
  rw [optional_list, under_eq_valid_iff, list_eq_valid_iff] at left right
  obtain ⟨ps, listedLeft, readLeft⟩ := left
  obtain ⟨qs, listedRight, readRight⟩ := right
  exact .rows listedLeft listedRight (forall₂_of_read readLeft readRight fun one other =>
    RowAlike.of_record one other Alike.of_read)

theorem append (columns : ListsAlike x y) (done : Edit.append y column = .ok next) :
    ∃ before, Edit.append x column = .ok before ∧ ListsAlike (some before) (some next) := by
  cases columns with
  | same => exact ⟨next, done, .same _⟩
  | rows left right each =>
    have appended {list? : Option Json} {rows : List Json}
        (listed : list?.getD (.arr []) = .arr rows) :
        Edit.append list? column = .ok (.arr (rows ++ [column])) := by
      cases list? with
      | none => cases listed; rfl
      | some value => cases listed; rfl
    obtain rfl := Except.ok.inj ((appended right).symm.trans done)
    exact ⟨_, appended left, .rows rfl rfl (List.rel_append each (.cons (.same column) .nil))⟩

end Column.ListsAlike

end Schemata
