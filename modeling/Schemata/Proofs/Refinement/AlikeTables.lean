import Schemata.Proofs.Refinement.Alike

/-! Tables that no change tells apart. Hints of other names are compared through a relation that
only has to last while hints are put, so that the same steps serve hints that are equal and hints
that differ. -/

namespace Schemata

open Checked Decode

variable {a b changes : Members} {same : Members → Members → Prop}

/-! ### Hints -/

/-- A relation between hints of other names that lasts while the same hint is put on both sides. -/
structure Lasting (same : Members → Members → Prop) : Prop where
  refl (extras : Members) : same extras extras
  put {a b : Members} (name : String) (value : Json) (before : same a b) :
    same (a.put name value) (b.put name value)

/-- Hints of other names of which each is worth the same, a missing one being `null`. -/
def SameExtras (a b : Members) : Prop := ∀ name, (Json.obj a).member name = (Json.obj b).member name

namespace Lasting

theorem always : Lasting fun _ _ => True where
  refl _ := trivial
  put _ _ _ := trivial

theorem eq : Lasting Eq where
  refl _ := rfl
  put _ _ before := by rw [before]

theorem sameExtras : Lasting SameExtras where
  refl _ _ := rfl
  put name value before key := by
    have put (members : Members) : (Json.obj (members.put name value)).member key =
        if key = name then value else (Json.obj members).member key := by
      simp only [Json.member, Json.members?_obj, Keyed.lookup_put]
      split <;> rfl
    rw [put, put, before key]

end Lasting

namespace Hints

private theorem extrasOf_put (members : Members) (name : String) (value : Json) :
    (extrasOf (members.put name value)).val =
    if name ∈ hintNames then (extrasOf members).val
      else (extrasOf members).val.put name value.plain := by
  induction members with
  | nil => by_cases known : name ∈ hintNames <;> simp [extrasOf, Json.plainMembers, known]
  | cons head rest ih =>
    obtain ⟨key, old⟩ := head
    simp only [extrasOf] at ih ⊢
    by_cases here : key = name
    · subst here
      by_cases known : key ∈ hintNames <;> simp [Keyed.put, Json.plainMembers, known]
    · rw [Keyed.put, if_neg here, List.filter_cons]
      by_cases known : name ∈ hintNames <;> by_cases passed : key ∈ hintNames <;>
        simpa [Keyed.put, Json.plainMembers, known, passed, here] using ih

theorem sameExtras_settled {hints : Hints} (once : hints.extras.keys.Nodup) :
    SameExtras hints.extras hints.settled.extras := by
  intro name
  have settled : hints.settled.extras.lookup name = (hints.extras.lookup name).filter fun value =>
      !value.isNull :=
    Keyed.lookup_filter once (fun value => !value.isNull) name
  simp only [Json.member, Json.members?_obj, settled]
  cases hints.extras.lookup name with
  | none => rfl
  | some value => cases value <;> rfl

/-- Hints that are equal but for hints of other names, which are related. -/
structure Agrees (same : Members → Members → Prop) (h k : Hints) : Prop where
  icon : h.icon? = k.icon?
  label : h.label? = k.label?
  description : h.description? = k.description?
  color : h.color? = k.color?
  columns : h.columns = k.columns
  extras : same h.extras k.extras

theorem Agrees.eq {h k : Hints} (agree : h.Agrees Eq k) : h = k := by
  obtain ⟨icon, label, description, color, columns, extras⟩ := agree
  cases h
  cases k
  simp_all

/-- Hints that read alike, with hints of other names that are related. -/
structure Alike (same : Members → Members → Prop) (a b : Members) : Prop where
  icon : Decode.optional a ["icon"] .none (nullable string) =
    Decode.optional b ["icon"] .none (nullable string)
  label : Decode.optional a ["label"] .none (nullable string) =
    Decode.optional b ["label"] .none (nullable string)
  description : Decode.optional a ["description"] .none (nullable string) =
    Decode.optional b ["description"] .none (nullable string)
  color : Decode.optional a ["color"] .none (nullable string) =
    Decode.optional b ["color"] .none (nullable string)
  columns : Decode.optional a ["columns"] .none ColumnHints.decode =
    Decode.optional b ["columns"] .none ColumnHints.decode
  extras : same (extrasOf a).val (extrasOf b).val

namespace Alike

theorem put (lasting : Lasting same) (alike : Alike same a b) (name : String) (value : Json) :
    Alike same (a.put name value) (b.put name value) where
  icon := optional_merge_congr [(name, value)] (by simp) alike.icon
  label := optional_merge_congr [(name, value)] (by simp) alike.label
  description := optional_merge_congr [(name, value)] (by simp) alike.description
  color := optional_merge_congr [(name, value)] (by simp) alike.color
  columns := optional_merge_congr [(name, value)] (by simp) alike.columns
  extras := by
    rw [extrasOf_put, extrasOf_put]
    split
    · exact alike.extras
    · exact lasting.put name value.plain alike.extras

theorem merge (lasting : Lasting same) (alike : Alike same a b) (changes : Members) :
    Alike same (a.merge changes) (b.merge changes) := by
  induction changes generalizing a b with
  | nil => exact alike
  | cons change rest ih => exact ih (alike.put lasting change.1 change.2)

theorem of_read {hints : Hints} (left : ofMembers a = .valid hints)
    (right : ofMembers b = .valid hints.settled) (extras : same hints.extras hints.settled.extras) :
    Alike same a b := by
  obtain ⟨iconA, labelA, descriptionA, colorA, columnsA, extrasA⟩ := ofMembers_eq_valid_iff.mp left
  obtain ⟨iconB, labelB, descriptionB, colorB, columnsB, extrasB⟩ := ofMembers_eq_valid_iff.mp right
  exact ⟨iconA.trans iconB.symm, labelA.trans labelB.symm, descriptionA.trans descriptionB.symm,
    colorA.trans colorB.symm, columnsA.trans columnsB.symm, by rwa [extrasA, extrasB]⟩

theorem read {hints : Hints} (alike : Alike same a b) (right : ofMembers b = .valid hints) :
    ∃ others, ofMembers a = .valid others ∧ others.Agrees same hints := by
  obtain ⟨icon, label, description, color, columns, extras⟩ := ofMembers_eq_valid_iff.mp right
  refine ⟨{ hints with
      extras := _
      extras_fresh := (extrasOf a).property.1
      extras_plain := (extrasOf a).property.2 }, ofMembers_eq_valid_iff.mpr
    ⟨alike.icon.trans icon, alike.label.trans label, alike.description.trans description,
      alike.color.trans color, alike.columns.trans columns, rfl⟩, rfl, rfl, rfl, rfl, rfl, ?_⟩
  rw [← extras]
  exact alike.extras

end Alike

/-- Hints of two tables that are the same, or objects that are alike. -/
inductive FieldsAlike (same : Members → Members → Prop) : Option Json → Option Json → Prop where
  | same (hints? : Option Json) : FieldsAlike same hints? hints?
  | members {x y : Option Json} {a b : Members} (left : members? x =
      some a) (right : members? y = some b)
    (each : Alike same a b) : FieldsAlike same x y

namespace FieldsAlike

theorem of_read {hints : Hints} (left : Decode.optional a ["ui_hints"] .none decode = .valid hints)
    (right : Decode.optional b ["ui_hints"] .none decode = .valid hints.settled)
    (extras : same hints.extras hints.settled.extras) :
    FieldsAlike same (a.lookup "ui_hints") (b.lookup "ui_hints") := by
  obtain ⟨_, givenLeft, readLeft⟩ := optional_eq_valid_iff.mp left
  obtain ⟨_, givenRight, readRight⟩ := optional_eq_valid_iff.mp right
  exact .members givenLeft givenRight (.of_read readLeft readRight extras)

theorem read {hints : Hints} (lasting : Lasting same)
    (alike : FieldsAlike same (a.lookup "ui_hints") (b.lookup "ui_hints"))
    (right : Decode.optional b ["ui_hints"] .none decode = .valid hints) :
    ∃ others, Decode.optional a ["ui_hints"] .none decode = .valid others ∧
      others.Agrees same hints := by
  simp only [optional_eq_valid_iff] at right ⊢
  generalize a.lookup "ui_hints" = x at alike ⊢
  generalize b.lookup "ui_hints" = y at alike right
  obtain ⟨given, there, read⟩ := right
  cases alike with
  | same => exact ⟨hints, ⟨given, there, read⟩, rfl, rfl, rfl, rfl, rfl, lasting.refl _⟩
  | members left right each =>
    obtain rfl := Option.some.inj (there.symm.trans right)
    obtain ⟨others, valid, agrees⟩ := each.read read
    exact ⟨others, ⟨_, left, valid⟩, agrees⟩

end FieldsAlike

end Hints

/-! ### Tables and relationships -/

/-- Tables that are equal but for hints of other names, which are related. -/
structure Table.Agrees (same : Members → Members → Prop) (t u : Table) : Prop where
  name : t.name = u.name
  columns : t.columns = u.columns
  indexes : t.indexes = u.indexes
  hints : t.hints.Agrees same u.hints

theorem Table.Agrees.eq {t u : Table} (agree : t.Agrees Eq u) : t = u := by
  have hints := agree.hints.eq
  obtain ⟨name, columns, indexes, -⟩ := agree
  cases t
  cases u
  simp_all

/-- Tables of the same name with columns and hints that are alike and indexes that read alike. -/
structure Table.Alike (same : Members → Members → Prop) (a b : Members) : Prop where
  name : a.lookup "name" = b.lookup "name"
  columns : Column.ListsAlike (a.lookup "columns") (b.lookup "columns")
  indexes : optional a ["indexes"] [] (list Index.decode) =
    optional b ["indexes"] [] (list Index.decode)
  hints : Hints.FieldsAlike same (a.lookup "ui_hints") (b.lookup "ui_hints")

/-- Relationships with the same ends that read alike. -/
structure Relationship.Alike (a b : Members) : Prop where
  fromTable : a.lookup "from_table" = b.lookup "from_table"
  fromColumn : a.lookup "from_column" = b.lookup "from_column"
  toTable : a.lookup "to_table" = b.lookup "to_table"
  read : ofMembers a = ofMembers b

namespace Table.Alike

open Edit

theorem merge (alike : Alike same a b) (changes : Members) :
    Alike same (a.merge changes) (b.merge changes) where
  name := Keyed.lookup_merge_congr changes alike.name
  columns := by
    rw [Keyed.lookup_merge, Keyed.lookup_merge]
    cases changes.reverse.lookup "columns" with
    | some value => exact .same _
    | none => exact alike.columns
  indexes := optional_merge_congr changes (by simp) alike.indexes
  hints := by
    rw [Keyed.lookup_merge, Keyed.lookup_merge]
    cases changes.reverse.lookup "ui_hints" with
    | some value => exact .same _
    | none => exact alike.hints

theorem put_columns (alike : Alike same a b) (columns : Column.ListsAlike (some x) (some y)) :
    Alike same (a.put "columns" x) (b.put "columns" y) where
  name := by simp [Keyed.lookup_put, alike.name]
  columns := by simpa [Keyed.lookup_put] using columns
  indexes := by rw [optional_put (by simp), optional_put (by simp), alike.indexes]
  hints := by simpa [Keyed.lookup_put] using alike.hints

theorem put_hints (alike : Alike same a b) (hints : Hints.FieldsAlike same (some x) (some y)) :
    Alike same (a.put "ui_hints" x) (b.put "ui_hints" y) where
  name := by simp [Keyed.lookup_put, alike.name]
  columns := by simpa [Keyed.lookup_put] using alike.columns
  indexes := by rw [optional_put (by simp), optional_put (by simp), alike.indexes]
  hints := by simpa [Keyed.lookup_put] using hints

theorem of_read {table : Table} (left : ofMembers a = .valid table)
    (right : ofMembers b = .valid table.settled)
    (extras : same table.hints.extras table.hints.settled.extras) : Alike same a b := by
  obtain ⟨nameA, columnsA, indexesA, hintsA⟩ := ofMembers_eq_valid_iff.mp left
  obtain ⟨nameB, columnsB, indexesB, hintsB⟩ := ofMembers_eq_valid_iff.mp right
  rw [required_string_eq_valid_iff] at nameA nameB
  exact ⟨nameA.trans nameB.symm, .of_read columnsA columnsB, indexesA.trans indexesB.symm,
    .of_read hintsA hintsB extras⟩

theorem read {table : Table} (lasting : Lasting same) (alike : Alike same a b)
    (right : ofMembers b = .valid table) :
    ∃ other, ofMembers a = .valid other ∧ other.Agrees same table := by
  obtain ⟨name, columns, indexes, hints⟩ := ofMembers_eq_valid_iff.mp right
  obtain ⟨others, given, agrees⟩ := alike.hints.read lasting hints
  exact ⟨{ table with hints := others }, ofMembers_eq_valid_iff.mpr
    ⟨(required_congr alike.name _).trans name, alike.columns.read.trans columns,
    alike.indexes.trans indexes, given⟩, rfl, rfl, rfl, agrees⟩

end Table.Alike

theorem Relationship.Alike.of_read {r : Relationship} (left : ofMembers a = .valid r)
    (right : ofMembers b = .valid r) : Alike a b := by
  obtain ⟨tableA, columnA, targetA, -⟩ := ofMembers_eq_valid_iff.mp left
  obtain ⟨tableB, columnB, targetB, -⟩ := ofMembers_eq_valid_iff.mp right
  rw [required_string_eq_valid_iff] at tableA columnA targetA tableB columnB targetB
  exact ⟨tableA.trans tableB.symm, columnA.trans columnB.symm, targetA.trans targetB.symm,
    left.trans right.symm⟩

/-! ### Changes of rows -/

namespace Edit

variable {p q next : Json}

/-- Rows of tables that are alike. -/
abbrev TablesAlike (same : Members → Members → Prop) : Json → Json → Prop :=
  RowAlike (Table.Alike same)

theorem merge_alike (left : p.members? = some a) (right : q.members? = some b)
    (alike : Table.Alike same a b) (changes : Members) :
    TablesAlike same (merge p changes) (merge q changes) :=
  .members (members?_merge_of left changes) (members?_merge_of right changes) (alike.merge changes)

theorem put_columns_alike (left : p.members? = some a) (right : q.members? = some b)
    (alike : Table.Alike same a b) (columns : Column.ListsAlike (some x) (some y)) :
    TablesAlike same (put p "columns" x) (put q "columns" y) :=
  .members (members?_put_of left _ x) (members?_put_of right _ y) (alike.put_columns columns)

theorem addColumn_alike (left : p.members? = some a) (right : q.members? = some b)
    (alike : Table.Alike same a b) (done : append (lookup? q "columns") column = .ok columns) :
    ∃ others, append (lookup? p "columns") column = .ok others ∧
      TablesAlike same (put p "columns" others) (put q "columns" columns) := by
  rw [lookup?_of_members? right] at done
  rw [lookup?_of_members? left]
  obtain ⟨others, added, lists⟩ := alike.columns.append done
  exact ⟨others, added, put_columns_alike left right alike lists⟩

private theorem findColumn_alike (left : p.members? = some a) (right : q.members? = some b)
    (alike : Table.Alike same a b) (found : findColumn q name = .ok (qs, place, row)) :
    ∃ ps other, findColumn p name = .ok (ps, place, other) ∧
      List.Forall₂ (RowAlike Column.Alike) ps qs ∧ RowAlike Column.Alike other row := by
  have named : p.member "name" = q.member "name" := by
    rw [member_of_members? left, member_of_members? right, alike.name]
  have columns := alike.columns
  rw [← lookup?_of_members? left, ← lookup?_of_members? right] at columns
  generalize onLeft : lookup? p "columns" = x at columns
  generalize onRight : lookup? q "columns" = y at columns
  cases columns with
  | same =>
    have there : findColumn p name = findColumn q name := by
      simp only [findColumn, onLeft, onRight, named]
    exact ⟨qs, row, there.trans found, RowAlike.forall₂_refl qs, .same row⟩
  | rows left right each =>
    cases y with
    | none =>
      rw [findColumn, onRight] at found
      cases found
    | some value =>
      rw [Option.getD_some] at right
      subst right
      obtain ⟨rfl, located⟩ := (findColumn_eq_ok_iff onRight).mp found
      obtain ⟨other, there, row⟩ := findNamed_alike Column.Alike.name each located
      cases x with
      | none =>
        -- without columns on one side there are none on the other side to be found
        cases left
        cases each
        cases located
      | some value =>
        rw [Option.getD_some] at left
        subst left
        exact ⟨_, other, (findColumn_eq_ok_iff onLeft).mpr ⟨rfl, there⟩, each, row⟩

theorem onColumn_alike {edit : List Json → Nat → Json → List Json} (left : p.members? = some a)
    (right : q.members? = some b) (alike : Table.Alike same a b)
    (edits : ∀ {ps qs place p q}, List.Forall₂ (RowAlike Column.Alike) ps qs →
      RowAlike Column.Alike p q →
      List.Forall₂ (RowAlike Column.Alike) (edit ps place p) (edit qs place q))
    (done : onColumn q name edit = .ok next) :
    ∃ other, onColumn p name edit = .ok other ∧ TablesAlike same other next := by
  obtain ⟨qs, place, row, found, rfl⟩ := onColumn_eq_ok_iff.mp done
  obtain ⟨ps, other, there, lists, rows⟩ := findColumn_alike left right alike found
  exact ⟨_, onColumn_eq_ok_iff.mpr ⟨ps, place, other, there, rfl⟩,
    put_columns_alike left right alike (.rows rfl rfl (edits lists rows))⟩

theorem modifyColumn_alike (plain : (Change.modifyColumn table column changes).plainKey = true)
    (rows : List.Forall₂ (RowAlike Column.Alike) ps qs) (row : RowAlike Column.Alike p q) :
    List.Forall₂ (RowAlike Column.Alike) (ps.set place (merge p changes))
      (qs.set place (merge q changes)) := by
  refine forall₂_set rows ?_ place
  cases row with
  | same => exact .same _
  | members left right each =>
    exact .members (members?_merge_of left changes) (members?_merge_of right changes)
      (each.merge plain)

private theorem mergeHints_of_members (read : Hints.members? (lookup? p "ui_hints") = some a)
    (changes : Members) :
    ∃ hints, mergeHints p changes = .ok (put p "ui_hints" hints) ∧
      Hints.members? (some hints) = some (a.merge changes) := by
  rw [mergeHints]
  cases found : lookup? p "ui_hints" with
  | none =>
    rw [found] at read
    cases read
    exact ⟨_, rfl, by rw [Hints.members?, Option.elim_some, texts?_merge]; rfl⟩
  | some hints =>
    rw [found, Hints.members?, Option.elim_some] at read
    have object : isObject hints = true := isObject_iff.mpr ⟨a, Json.members?_of_texts? read⟩
    refine ⟨merge hints changes, if_pos object, ?_⟩
    rw [Hints.members?, Option.elim_some, texts?_merge, read]
    rfl

theorem mergeHints_alike (lasting : Lasting same) (left : p.members? = some a)
    (right : q.members? = some b) (alike : Table.Alike same a b)
    (done : mergeHints q changes = .ok next) :
    ∃ other, mergeHints p changes = .ok other ∧ TablesAlike same other next := by
  have puts {x y : Json} (hints : Hints.FieldsAlike same (some x) (some y)) :
      TablesAlike same (put p "ui_hints" x) (put q "ui_hints" y) :=
    .members (members?_put_of left _ x) (members?_put_of right _ y) (alike.put_hints hints)
  have hints := alike.hints
  rw [← lookup?_of_members? left, ← lookup?_of_members? right] at hints
  generalize onLeft : lookup? p "ui_hints" = x at hints
  generalize onRight : lookup? q "ui_hints" = y at hints
  cases hints with
  | same =>
    rw [mergeHints, onRight] at done
    rw [mergeHints, onLeft]
    cases x with
    | none =>
      cases done
      exact ⟨_, rfl, puts (.same _)⟩
    | some hints =>
      by_cases object : isObject hints = true
      · cases (if_pos object).symm.trans done
        exact ⟨_, if_pos object, puts (.same _)⟩
      · cases (if_neg object).symm.trans done
  | members readLeft readRight each =>
    obtain ⟨before, doneLeft, hintsLeft⟩ := mergeHints_of_members (onLeft ▸ readLeft) changes
    obtain ⟨after, doneRight, hintsRight⟩ := mergeHints_of_members (onRight ▸ readRight) changes
    obtain rfl := Except.ok.inj (doneRight.symm.trans done)
    exact ⟨_, doneLeft, puts (.members hintsLeft hintsRight (each.merge lasting changes))⟩

end Edit

end Schemata
