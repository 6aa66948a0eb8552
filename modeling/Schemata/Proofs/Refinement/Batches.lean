import Schemata.Proofs.Refinement.AlikeTables
import Schemata.Proofs.Refinement.Frame

/-! Changes in one batch or in two. Between two batches a schema is read and written out again, and
the second batch finds other rows than it would have found in one go; they are alike, so it does the
same to them. -/

namespace Schemata

open Checked Decode Edit

variable {same : Members → Members → Prop} {p q next : Members}

/-! ### Forms that are alike -/

/-- Schemas that are equal but for hints of other names, which are related. -/
structure Schema.Agrees (same : Members → Members → Prop) (s t : Schema) : Prop where
  version : s.version = t.version
  tables : List.Forall₂ (Table.Agrees same) s.tables t.tables
  relationships : s.relationships = t.relationships

theorem Schema.Agrees.eq {s t : Schema} (agree : s.Agrees Eq t) : s = t := by
  have tables : s.tables = t.tables := by
    rw [← List.forall₂_eq_eq_eq]
    exact agree.tables.imp fun _ _ table => table.eq
  obtain ⟨version, -, relationships⟩ := agree
  cases s
  cases t
  simp_all

/-- Forms of the same version with rows of tables and of relationships that are alike. -/
structure FormsAlike (same : Members → Members → Prop) (p q : Members) : Prop where
  version : p.lookup "version" = q.lookup "version"
  rows : ∃ tables others links rest, Holds p tables links ∧ Holds q others rest ∧
    List.Forall₂ (TablesAlike same) tables others ∧
      List.Forall₂ (RowAlike Relationship.Alike) links rest

namespace FormsAlike

theorem putTables {tables others links rest : List Json} (alike : FormsAlike same p q)
    (left : Holds p tables links) (right : Holds q others rest)
    (ends : List.Forall₂ (RowAlike Relationship.Alike) links rest)
    (rows : List.Forall₂ (TablesAlike same) before after) :
    FormsAlike same (p.put "tables" (.arr before)) (q.put "tables" (.arr after)) where
  version := by simp [Keyed.lookup_put, alike.version]
  rows := ⟨before, after, links, rest, left.putTables before, right.putTables after, rows, ends⟩

theorem putRelationships {tables others links rest : List Json} (alike : FormsAlike same p q)
    (left : Holds p tables links) (right : Holds q others rest)
    (rows : List.Forall₂ (TablesAlike same) tables others)
    (ends : List.Forall₂ (RowAlike Relationship.Alike) before after) :
    FormsAlike same (p.put "relationships" (.arr before)) (q.put "relationships" (.arr after)) where
  version := by simp [Keyed.lookup_put, alike.version]
  rows :=
    ⟨tables, others, before, after, left.putRelationships before,
    right.putRelationships after, rows, ends⟩

/-- What changes alike tables alike changes alike forms alike. -/
theorem onTable {edit : Json → Except Obstacle Json} (alike : FormsAlike same p q)
    (edits : ∀ {row other new a b}, other.members? = some a → row.members? = some b →
      Table.Alike same a b →
      edit row = .ok new → ∃ made, edit other = .ok made ∧ TablesAlike same made new)
    (done : onTable q name edit = .ok next) :
    ∃ before, Edit.onTable p name edit = .ok before ∧ FormsAlike same before next := by
  obtain ⟨tables, others, links, rest, left, right, rows, ends⟩ := alike.rows
  obtain ⟨place, row, new, located, changed, rfl⟩ := (onTable_eq_ok_iff right).mp done
  obtain ⟨other, there, each⟩ := findNamed_alike Table.Alike.name rows located
  obtain ⟨made, edited, row⟩ : ∃ made, edit other = .ok made ∧ TablesAlike same made new := by
    cases each with
    | same => exact ⟨new, changed, .same new⟩
    | members objectLeft objectRight each => exact edits objectLeft objectRight each changed
  exact ⟨_, (onTable_eq_ok_iff left).mpr ⟨place, other, made, there, edited, rfl⟩,
    alike.putTables left right ends (forall₂_set rows row place)⟩

private theorem deleteTable (alike : FormsAlike same p q) (done : deleteTable q name = .ok next) :
    ∃ before, Edit.deleteTable p name = .ok before ∧ FormsAlike same before next := by
  obtain ⟨tables, others, links, rest, left, right, rows, ends⟩ := alike.rows
  obtain ⟨⟨⟨place, row⟩, located⟩, kept, spared, keptTables, keptLinks, rfl⟩ :=
    (deleteTable_eq_ok_iff right).mp done
  obtain ⟨other, there, -⟩ := findNamed_alike Table.Alike.name rows located
  obtain ⟨before, keptBefore, fewer⟩ := keepRows_alike
    (fun row => by simp only [row.member_eq Table.Alike.name]) rows keptTables
  obtain ⟨starts, keptStarts, spares⟩ := keepRows_alike (fun row => by
    simp only [row.member_eq Relationship.Alike.fromTable,
      row.member_eq Relationship.Alike.toTable]) ends keptLinks
  exact ⟨_, (deleteTable_eq_ok_iff left).mpr ⟨⟨_, there⟩, before, starts, keptBefore,
    keptStarts, rfl⟩, (alike.putTables left right ends fewer).putRelationships (left.putTables _)
    (right.putTables _) fewer spares⟩

private theorem deleteRelationship (alike : FormsAlike same p q)
    (done : deleteRelationship q fromTable fromColumn = .ok next) :
    ∃ before, Edit.deleteRelationship p fromTable fromColumn = .ok before ∧
      FormsAlike same before next := by
  obtain ⟨tables, others, links, rest, left, right, rows, ends⟩ := alike.rows
  obtain ⟨kept, keptLinks, some, rfl⟩ := (deleteRelationship_eq_ok_iff right).mp done
  obtain ⟨starts, keptStarts, fewer⟩ := keepRows_alike (fun row => by simp only
    [row.member_eq Relationship.Alike.fromTable, row.member_eq Relationship.Alike.fromColumn]) ends
      keptLinks
  rw [← ends.length_eq, ← fewer.length_eq] at some
  exact ⟨_, (deleteRelationship_eq_ok_iff left).mpr ⟨starts, keptStarts, some, rfl⟩,
    alike.putRelationships left right rows fewer⟩

/-- A change that can be made in one of two forms that are alike can be made in the other one, with
forms that are alike again. -/
theorem step (lasting : Lasting same) (alike : FormsAlike same p q) (plain : change.plainKey = true)
    (done : step q change = .ok next) :
    ∃ before, Edit.step p change = .ok before ∧ FormsAlike same before next := by
  obtain ⟨tables, others, links, rest, left, right, rows, ends⟩ := alike.rows
  cases change with
  | addTable table =>
    obtain ⟨row, complete, rfl⟩ := (addTable_eq_ok_iff right).mp done
    exact ⟨_, (addTable_eq_ok_iff left).mpr ⟨row, complete, rfl⟩,
      alike.putTables left right ends (List.rel_append rows (.cons (.same _) .nil))⟩
  | addRelationship relationship =>
    obtain rfl := (addRelationship_eq_ok_iff right).mp done
    exact ⟨_, (addRelationship_eq_ok_iff left).mpr rfl,
      alike.putRelationships left right rows (List.rel_append ends (.cons (.same _) .nil))⟩
  | deleteTable => exact alike.deleteTable done
  | deleteRelationship => exact alike.deleteRelationship done
  | modifyTable _ changes =>
    rw [Edit.step] at done ⊢
    refine alike.onTable (fun objectLeft objectRight each done => ?_) done
    obtain rfl := Except.ok.inj done
    exact ⟨_, rfl, merge_alike objectLeft objectRight each changes⟩
  | addColumn =>
    rw [Edit.step] at done ⊢
    refine alike.onTable (fun objectLeft objectRight each done => ?_) done
    obtain ⟨columns, added, made⟩ := bind_eq_ok_iff.mp done
    obtain ⟨_, appended, row⟩ := addColumn_alike objectLeft objectRight each added
    exact ⟨_, bind_eq_ok_iff.mpr ⟨_, appended, rfl⟩, Except.ok.inj made ▸ row⟩
  | modifyColumn =>
    rw [Edit.step] at done ⊢
    exact alike.onTable (fun objectLeft objectRight each done =>
      onColumn_alike objectLeft objectRight each (modifyColumn_alike plain) done) done
  | deleteColumn =>
    rw [Edit.step] at done ⊢
    exact alike.onTable (fun objectLeft objectRight each done =>
      onColumn_alike objectLeft objectRight each (fun lists _ => forall₂_eraseIdx lists _) done)
        done
  | modifyHints =>
    rw [Edit.step] at done ⊢
    exact alike.onTable (fun objectLeft objectRight each done =>
      mergeHints_alike lasting objectLeft objectRight each done) done

/-- Changes that can all be made in one of two forms that are alike can be made in the other one. -/
theorem run (lasting : Lasting same) {changes : List Change} (alike : FormsAlike same p q)
    (plain : ∀ change ∈ changes, change.plainKey = true)
    (done : changes.foldlM Change.apply q = .ok next) :
    ∃ before, changes.foldlM Change.apply p = .ok before ∧ FormsAlike same before next := by
  induction changes generalizing p q with
  | nil =>
    cases done
    exact ⟨p, rfl, alike⟩
  | cons change rest ih =>
    obtain ⟨middle, first, done⟩ := Change.foldlM_cons_eq_ok_iff.mp done
    obtain ⟨started, stepped, between⟩ := alike.step lasting (plain change List.mem_cons_self) first
    obtain ⟨before, ran, result⟩ :=
      ih between (fun c member => plain c (List.mem_cons_of_mem _ member)) done
    exact ⟨before, Change.foldlM_cons_eq_ok_iff.mpr ⟨started, stepped, ran⟩, result⟩

/-- What is read from a form and written out again is alike, but for hints of other names that are
lost. -/
theorem of_read {schema : Schema} {tables links : List Json} (holds : Holds p tables links)
    (version : p.lookup "version" = some (.str schema.version))
    (read : Schema.ofMembers p = .valid schema)
    (extras : ∀ table ∈ schema.tables, same table.hints.extras table.hints.settled.extras) :
    FormsAlike same p (schema.members .omitted) := by
  obtain ⟨-, tablesRead, linksRead⟩ := Schema.ofMembers_eq_valid_iff.mp read
  rw [optional_of_lookup holds.tables, under_eq_valid_iff, list_eq_valid_iff] at tablesRead
  rw [optional_of_lookup holds.relationships, under_eq_valid_iff, list_eq_valid_iff] at linksRead
  obtain ⟨_, listed, rows⟩ := tablesRead
  obtain ⟨_, linked, ends⟩ := linksRead
  cases listed
  cases linked
  refine ⟨version, tables, _, links, _, holds, holds_members schema, ?_, ?_⟩
  · refine List.forall₂_map_right_iff.mpr (List.forall₂_iff_zip.mpr ⟨rows.length_eq,
      fun {row table} inside => ?_⟩)
    have kept := extras table (List.of_mem_zip inside).2
    obtain ⟨_, object, valid⟩ := record_eq_valid_iff.mp ((List.forall₂_iff_zip.mp rows).2 inside)
    obtain ⟨_, written, settled⟩ := record_eq_valid_iff.mp table.decode_toJson
    exact .members object written (.of_read valid settled kept)
  · refine List.forall₂_map_right_iff.mpr (ends.imp fun row r read => ?_)
    exact RowAlike.of_record read r.decode_toJson Relationship.Alike.of_read

private theorem read {schema : Schema} (lasting : Lasting same) (alike : FormsAlike same p q)
    (right : Schema.ofMembers q = .valid schema) :
    ∃ other, Schema.ofMembers p = .valid other ∧ other.Agrees same schema := by
  obtain ⟨tables, others, links, rest, left, holds, rows, ends⟩ := alike.rows
  obtain ⟨version, tablesRead, linksRead⟩ := Schema.ofMembers_eq_valid_iff.mp right
  rw [optional_of_lookup holds.tables, under_eq_valid_iff, list_eq_valid_iff] at tablesRead
  rw [optional_of_lookup holds.relationships] at linksRead
  obtain ⟨_, listed, eachTable⟩ := tablesRead
  cases listed
  have each {row other : Json} {table : Table} (each : TablesAlike same other row)
      (valid : Table.decode row = .valid table) : ∃ t, Table.decode other = .valid t ∧
        t.Agrees same table := by
    cases each with
    | same => exact ⟨table, valid, rfl, rfl, rfl, rfl, rfl, rfl, rfl, rfl, lasting.refl _⟩
    | members objectLeft objectRight each =>
      obtain ⟨_, object, valid⟩ := record_eq_valid_iff.mp valid
      obtain rfl := Option.some.inj (objectRight.symm.trans object)
      obtain ⟨t, validLeft, agrees⟩ := each.read lasting valid
      exact ⟨t, record_eq_valid_iff.mpr ⟨_, objectLeft, validLeft⟩, agrees⟩
  obtain ⟨kept, readTables, agree⟩ := forall₂_read rows eachTable each
  have linksAlike : list Relationship.decode (.arr links) = list Relationship.decode (.arr rest) :=
    list_congr (ends.imp fun _ _ row => row.record_eq Relationship.Alike.read)
  refine ⟨{ schema with tables := kept }, Schema.ofMembers_eq_valid_iff.mpr ⟨?_, ?_, ?_⟩,
    rfl, agree, rfl⟩
  · have same (name : String) (only : name ∈ ["version"]) : p.lookup name = q.lookup name :=
      List.mem_singleton.mp only ▸ alike.version
    rwa [optional_congr same]
  · rw [optional_of_lookup left.tables, under_eq_valid_iff, list_eq_valid_iff]
    exact ⟨tables, rfl, readTables⟩
  · rwa [optional_of_lookup left.relationships, linksAlike]

end FormsAlike

/-! ### One batch and two -/

namespace Schema

variable {s t u : Schema} {xs ys : List Change}

/-- What two batches make of a schema, one batch makes of it but for hints of other names that are
lost in between. -/
theorem revise_append_agrees (lasting : Lasting same) (first : s.revise xs = .ok t)
    (second : t.revise ys = .ok u) (plain : ∀ change ∈ ys, change.plainKey = true)
    (extras : ∀ table ∈ t.tables, same table.hints.extras table.hints.settled.extras) :
    ∃ v, s.revise (xs ++ ys) = .ok v ∧ v.Agrees same u := by
  obtain ⟨writable, payload, applied, read⟩ := revise_eq_ok_iff.mp first
  obtain ⟨-, next, appliedNext, readNext⟩ := revise_eq_ok_iff.mp second
  -- of the first batch only its form counts, so nothing is asked to stay
  obtain ⟨tables, links, holds, version, -⟩ := foldlM_keeps [] [] (by simp) (by simp)
    (holds_members s)
    (List.nil_sublist _) (List.nil_sublist _) applied
  have alike : FormsAlike same payload (t.members .omitted) :=
    .of_read holds (by rw [version, version_of_lookup version read]; rfl) read extras
  obtain ⟨last, appliedLast, alike⟩ := alike.run lasting plain appliedNext
  obtain ⟨v, readLast, agrees⟩ := alike.read lasting readNext
  refine ⟨v, revise_eq_ok_iff.mpr ⟨writable, last, ?_, readLast⟩, agrees⟩
  rw [List.foldlM_append, applied]
  exact appliedLast

/-- Changes that are accepted in two batches are accepted in one, with the same result but for hints
of other names that are `null`, unless a column change of the second batch gives the second spelling
of the key flag only. -/
theorem revise_append (first : s.revise xs = .ok t) (second : t.revise ys = .ok u)
    (plain : ∀ change ∈ ys, change.plainKey = true) :
    ∃ v, s.revise (xs ++ ys) = .ok v ∧
      ((∀ table ∈ t.tables, table.hints.extras.keys.Nodup) → v.Agrees SameExtras u) ∧
      ((∀ table ∈ t.tables, ∀ extra ∈ table.hints.extras, extra.2 ≠ .null) → v = u) := by
  obtain ⟨v, done, -⟩ := revise_append_agrees .always first second plain fun _ _ => trivial
  refine ⟨v, done, fun once => ?_, fun clear => ?_⟩
  · obtain ⟨w, made, agrees⟩ :=
      revise_append_agrees .sameExtras first second plain fun table member =>
      Hints.sameExtras_settled (once table member)
    exact Except.ok.inj (done.symm.trans made) ▸ agrees
  · obtain ⟨w, made, agrees⟩ := revise_append_agrees .eq first second plain fun table member => by
      rw [Hints.settled_eq_iff.mpr (clear table member)]
    exact (Except.ok.inj (done.symm.trans made)).trans agrees.eq

/-- Deals with a code, which is their key or not. -/
def dealsByCode (primaryKey : Bool) : Schema :=
  { deals with tables := deals.tables.modifyHead fun table =>
      { table with columns := table.columns ++
        [⟨"code", .text, true, none, false, primaryKey, none⟩] } }

/-- The change that adds the code. -/
def addCode : Change := .addColumn (.str "deal") [("name", .str "code"), ("type", .str "TEXT")]

/-- The change that makes the code a key, in one spelling or the other. -/
def keyCode (spelling : String) : Change :=
  .modifyColumn (.str "deal") (.str "code") [(spelling, .bool true)]

/-- Deals with a note that is `null`. -/
def notedDeals : Schema :=
  { deals with tables := deals.tables.modifyHead (·.withHints
      { Hints.none with
        extras := [("note", .null)]
        extras_fresh := by simp [hintNames]
        extras_plain := by simp [Json.isPlain] }) }

/-- The change that puts the note. -/
def noteDeals : Change := .modifyHints (.str "deal") [("note", .null)]

/-- The code may be added and made a key at once, and added at once with a note that is `null`. -/
theorem code_added_at_once :
    (deals.revise [addCode] = .ok (dealsByCode false) ∧
      (dealsByCode false).revise [keyCode "primaryKey"] = .ok (dealsByCode true) ∧
      (∀ change ∈ [keyCode "primaryKey"], change.plainKey = true) ∧
      deals.revise [addCode, keyCode "primaryKey"] = .ok (dealsByCode true)) ∧
    (deals.revise [noteDeals] = .ok notedDeals ∧
      notedDeals.revise [addCode] = .ok (dealsByCode false) ∧
      (∀ change ∈ [addCode], change.plainKey = true) ∧
      ∃ v, deals.revise [noteDeals, addCode] = .ok v ∧
        v.Agrees SameExtras (dealsByCode false)) := by
  constructor
  · have first : deals.revise [addCode] = .ok (dealsByCode false) := by decide +kernel
    have second : (dealsByCode false).revise [keyCode "primaryKey"] =
        .ok (dealsByCode true) := by decide +kernel
    have plain : ∀ change ∈ [keyCode "primaryKey"], change.plainKey = true := by decide
    have clear : ∀ table ∈ (dealsByCode false).tables, ∀ extra ∈ table.hints.extras,
        extra.2 ≠ .null := by decide
    obtain ⟨v, done, -, equal⟩ := revise_append first second plain
    exact ⟨first, second, plain, equal clear ▸ done⟩
  · have first : deals.revise [noteDeals] = .ok notedDeals := by decide +kernel
    have second : notedDeals.revise [addCode] = .ok (dealsByCode false) := by decide +kernel
    have plain : ∀ change ∈ [addCode], change.plainKey = true := by decide
    have once : ∀ table ∈ notedDeals.tables, table.hints.extras.keys.Nodup := by decide
    obtain ⟨v, done, agrees, -⟩ := revise_append first second plain
    exact ⟨first, second, plain, v, done, agrees once⟩

/-- One batch does not always make the same as two: a second spelling that comes later finds the
first one written out only after a batch, and a hint that is `null` stays only as long as the schema
is not written out. -/
theorem batches_not_always_equal :
    (¬ ∀ (s t u : Schema) (xs ys : List Change), s.revise xs = .ok t → t.revise ys = .ok u →
      (∀ table ∈ t.tables, ∀ extra ∈ table.hints.extras, extra.2 ≠ .null) →
        s.revise (xs ++ ys) = .ok u) ∧
    ¬ ∀ (s t u : Schema) (xs ys : List Change), s.revise xs = .ok t → t.revise ys = .ok u →
      (∀ change ∈ ys, change.plainKey = true) → s.revise (xs ++ ys) = .ok u := by
  constructor
  · intro equal
    have added : deals.revise [addCode] = .ok (dealsByCode false) := by decide +kernel
    have kept : (dealsByCode false).revise [keyCode "primary_key"] =
        .ok (dealsByCode false) := by decide +kernel
    have differs :
        deals.revise ([addCode] ++ [keyCode "primary_key"]) ≠ .ok (dealsByCode false) := by
        decide +kernel
    exact differs (equal _ _ _ _ _ added kept (by decide))
  · intro equal
    have noted : deals.revise [noteDeals] = .ok notedDeals := by decide +kernel
    have added : notedDeals.revise [addCode] = .ok (dealsByCode false) := by decide +kernel
    have differs : deals.revise ([noteDeals] ++ [addCode]) ≠ .ok (dealsByCode false) := by
      decide +kernel
    exact differs (equal _ _ _ _ _ noted added (by decide))

end Schema

end Schemata
