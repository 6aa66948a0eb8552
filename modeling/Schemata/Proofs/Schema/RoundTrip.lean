import Schemata.Ddl.Compilation
import Schemata.Proofs.Keyed
import Schemata.Proofs.Rules.Hints
import Schemata.Schema.Payload

/-! Schemas read back from their payload. Nothing is lost but the hints of other names that are
`null`, and neither the rules nor the statements look at those. -/

namespace Schemata

namespace Decode

variable {decode : Json → Checked β} {write : α → Json} {read : α → β} {members : Members}
  {name : String} {value : Json}

@[simp] theorem string_str (s : String) : string (.str s) = .valid s := rfl

@[simp] theorem boolean_bool (b : Bool) : boolean (.bool b) = .valid b := rfl

@[simp] theorem record_obj (name : String) (ofMembers : Members → Checked α) (members : Members) :
    record name ofMembers (.obj members) = ofMembers members := rfl

theorem choice_spell {all : List α} {spell : α → String} (listed : a ∈ all)
    (distinct : (all.map spell).Nodup) : choice all spell (.str (spell a)) = .valid a := by
  have found : (all.find? fun b => spell b == spell a) = some a :=
    (Keyed.find?_eq_some_iff distinct).mpr ⟨listed, rfl⟩
  simp only [choice, found]

theorem list_map {values : List α} (each : ∀ a ∈ values, decode (write a) = .valid (read a)) :
    list decode (.arr (values.map write)) = .valid (values.map read) := by
  have items : ∀ n, itemsFrom decode n (values.map write) = .valid (values.map read) := by
    induction values with
    | nil => exact fun _ => rfl
    | cons a rest ih =>
      intro n
      have later := ih fun b member => each b (List.mem_cons_of_mem _ member)
      simp [itemsFrom, each a, later]
  exact items 0

private theorem dictionary_object (entries : List (String × Members)) :
    dictionary object (.obj (entries.map fun entry => (entry.1, .obj entry.2))) =
      .valid entries := by
  have inside : Decode.entries object (entries.map fun entry => (entry.1, .obj entry.2)) =
      .valid entries := by
    induction entries with
    | nil => rfl
    | cons entry rest ih =>
      rw [List.map_cons, Decode.entries, ih]
      rfl
  exact inside

private theorem columnHints_object (columns : ColumnHints) :
    ColumnHints.decode (.obj (columns.val.map fun column => (column.1, .obj column.2))) =
      .valid columns := by
  have kept : (columns.val.map fun column => (column.1, Json.plainMembers column.2)) =
      columns.val := by
    refine (List.map_congr_left fun column member => ?_).trans (List.map_id _)
    have plain := Json.arePlainMembers_iff.mpr (columns.property column member)
    rw [Json.plainMembers_of_arePlainMembers plain]
    rfl
  rw [ColumnHints.decode, dictionary_object]
  exact congrArg Checked.valid (Subtype.ext kept)

theorem optional_text {text? : Option String} (found : members.lookup name = text?.map .str) :
    Decode.optional members [name] none (nullable string) = .valid text? := by
  cases text? with
  | none => simp [Decode.optional, spelled?, found]
  | some text => simp [Decode.optional, spelled?, found, nullable]

end Decode

theorem Vacant.name_of_mem_member {write : α → Json}
    (member : entry ∈ omitted.member name write value?) :
    entry.1 = name := by
  cases value? with
  | none => cases member
  | some a => rw [List.mem_singleton.mp member]

theorem Vacant.lookup_member (name : String) (write : α → Json) (value? : Option α) (key : String) :
    (omitted.member name write value?).lookup key =
      if key = name then value?.map write else none := by
  cases value? with
  | none => simp [member]
  | some a =>
    by_cases same : key = name
    · simp [member, same]
    · simp [member, same, List.lookup_cons, beq_eq_false_iff_ne.mpr same]

open Decode

theorem ColumnType.decode_sql (type : ColumnType) : decode (.str type.sql) = .valid type := by
  refine choice_spell ?_ (by decide)
  cases type <;> decide

theorem DeleteAction.decode_sql (action : DeleteAction) :
    decode (.str action.sql) = .valid action := by
  refine choice_spell ?_ (by decide)
  cases action <;> decide

theorem Cardinality.decode_word (cardinality : Cardinality) :
    decode (.str cardinality.word) = .valid cardinality := by
  refine choice_spell ?_ (by decide)
  cases cardinality <;> decide

theorem Reference.decode_toJson (r : Reference) : decode r.toJson = .valid r := by
  simp [decode, toJson, ofMembers, Decode.required, Decode.optional, spelled?, List.lookup_cons,
    DeleteAction.decode_sql]

theorem Index.decode_toJson (i : Index) : decode i.toJson = .valid i := by
  have texts : list string (.arr (i.columns.map .str)) = .valid (i.columns.map id) :=
    list_map fun _ _ => rfl
  rw [List.map_id] at texts
  simp [decode, toJson, ofMembers, Decode.required, Decode.optional, spelled?, List.lookup_cons,
    Json.ofStrings, texts]

theorem Relationship.decode_toJson (r : Relationship) : decode r.toJson = .valid r := by
  simp [decode, toJson, ofMembers, Decode.required, Decode.optional, spelled?, List.lookup_cons,
    Cardinality.decode_word]

theorem Column.decode_toJson (c : Column) : decode (c.toJson .omitted) = .valid c := by
  obtain ⟨name, type, nullable, default?, unique, primaryKey, reference?⟩ := c
  have text : ∀ s, decodeDefault (.str s) = .valid (some s) := fun s => rfl
  have target : ∀ r : Reference, Decode.nullable Reference.decode r.toJson = .valid (some r) :=
    fun r => congrArg (some <$> ·) r.decode_toJson
  cases default? <;> cases reference? <;>
    simp [decode, toJson, ofMembers, Decode.required, Decode.optional, spelled?, List.lookup_cons,
      Vacant.member, ColumnType.decode_sql, text, target]

namespace Hints

variable (h : Hints)

/-- The hints of other names as a payload has them. -/
def written : Members := Vacant.omitted.extras h.extras

theorem mem_written (kept : extra ∈ h.written) : extra.1 ∉ hintNames :=
  h.extras_fresh extra (List.mem_filter.mp kept).1

theorem lookup_written (known : name ∈ hintNames) : h.written.lookup name = Option.none := by
  refine List.lookup_eq_none_iff.mpr fun extra kept => ?_
  have differs : name ≠ extra.1 := fun same => h.mem_written kept (same ▸ known)
  simpa using differs

/-- The hints that have a meaning of their own, as a payload has them. -/
def known : Members :=
  Vacant.omitted.member "icon" .str h.icon? ++ Vacant.omitted.member "label" .str h.label? ++
    Vacant.omitted.member "description" .str h.description? ++
    Vacant.omitted.member "color" .str h.color? ++
    [("columns", .obj (h.columns.map fun entry => (entry.1, .obj entry.2)))]

private theorem mem_known (member : hint ∈ h.known) : hint.1 ∈ hintNames := by
  simp only [known, List.mem_append, List.mem_singleton] at member
  rcases member with (((icon | label) | description) | color) | rfl
  · exact Vacant.name_of_mem_member icon ▸ by decide
  · exact Vacant.name_of_mem_member label ▸ by decide
  · exact Vacant.name_of_mem_member description ▸ by decide
  · exact Vacant.name_of_mem_member color ▸ by decide
  · simp [hintNames]

private theorem lookup_known :
    h.known.lookup "icon" = h.icon?.map .str ∧ h.known.lookup "label" = h.label?.map .str ∧
      h.known.lookup "description" = h.description?.map .str ∧
      h.known.lookup "color" = h.color?.map .str ∧
      h.known.lookup "columns" =
        some (.obj (h.columns.map fun entry => (entry.1, .obj entry.2))) := by
  refine ⟨?_, ?_, ?_, ?_, ?_⟩ <;> simp [known, List.lookup_append, Vacant.lookup_member,
    List.lookup_cons]

private theorem lookup_known_append (name : String) (known : name ∈ hintNames) :
    (h.known ++ h.written).lookup name = h.known.lookup name := by
  rw [List.lookup_append, h.lookup_written known, Option.or_none]

private theorem extrasOf_known_append : (extrasOf (h.known ++ h.written)).val = h.written := by
  have first : (h.known.filter fun member => !hintNames.contains member.1) = [] :=
    List.filter_eq_nil_iff.mpr fun member inside => by simpa using h.mem_known inside
  have second : (h.written.filter fun member => !hintNames.contains member.1) = h.written :=
    List.filter_eq_self.mpr fun member inside => by simpa using h.mem_written inside
  have plain : Json.arePlainMembers h.written = true :=
    Json.arePlainMembers_iff.mpr fun extra kept => h.extras_plain extra (List.mem_filter.mp kept).1
  have parts : ((h.known ++ h.written).filter fun member => !hintNames.contains member.1) =
      h.written := by
    rw [List.filter_append, first, second, List.nil_append]
  exact (congrArg Json.plainMembers parts).trans (Json.plainMembers_of_arePlainMembers plain)

private theorem decode_toJson : decode (h.toJson .omitted) = .valid h.settled := by
  have read : decode (h.toJson .omitted) = ofMembers (h.known ++ h.written) := rfl
  have text : ∀ name text?, name ∈ hintNames → h.known.lookup name = Option.map .str text? →
      Decode.optional (h.known ++ h.written) [name] .none (nullable string) = .valid text? :=
    fun name text? listed found => optional_text ((h.lookup_known_append name listed).trans found)
  obtain ⟨icon, label, description, color, columns⟩ := h.lookup_known
  have entries : Decode.optional (h.known ++ h.written) ["columns"] .none ColumnHints.decode =
      .valid ⟨h.columns, h.columns_plain⟩ := by
    have found := (h.lookup_known_append "columns" (by decide)).trans columns
    have read := columnHints_object ⟨h.columns, h.columns_plain⟩
    simp [Decode.optional, spelled?, found, read]
  rw [read, ofMembers, text _ _ (by decide) icon, text _ _ (by decide) label,
    text _ _ (by decide) description, text _ _ (by decide) color, entries]
  simp only [Checked.map_valid, Checked.valid_seq_valid, h.extrasOf_known_append]
  rfl

end Hints

theorem Table.decode_toJson (t : Table) : decode (t.toJson .omitted) = .valid t.settled := by
  have columns : list Column.decode (.arr (t.columns.map (Column.toJson .omitted))) =
      .valid (t.columns.map id) := list_map fun c _ => c.decode_toJson
  have indexes : list Index.decode (.arr (t.indexes.map Index.toJson)) =
      .valid (t.indexes.map id) :=
    list_map fun i _ => i.decode_toJson
  rw [List.map_id] at columns indexes
  simp [decode, toJson, ofMembers, Decode.required, Decode.optional, spelled?,
    List.lookup_cons, columns, indexes, t.hints.decode_toJson, settled]

namespace Schema

/-- A payload reads back as the schema that it was written for, but for hints that are `null`. -/
theorem decode_payload (s : Schema) : decode s.payload = .valid s.settled := by
  have tables : list Table.decode (.arr (s.tables.map (Table.toJson .omitted))) =
      .valid (s.tables.map Table.settled) := list_map fun t _ => t.decode_toJson
  have relationships : list Relationship.decode (.arr (s.relationships.map Relationship.toJson)) =
      .valid (s.relationships.map id) := list_map fun r _ => r.decode_toJson
  rw [List.map_id] at relationships
  simp [decode, payload, toJson, members, ofMembers, Decode.optional, spelled?,
    List.lookup_cons, tables, relationships, settled]

private theorem withHints_settled (s : Schema) (hints : Hints) :
    s.settled.withHints hints = s.withHints hints := by
  simp [withHints, settled, Table.withHints, Table.settled]

theorem violations_settled (s : Schema) (limits : Limits) :
    s.settled.violations limits = s.violations limits := by
  rw [← violations_withHints s .none limits, ← withHints_settled, violations_withHints]

theorem passes_settled (s : Schema) (limits : Limits) :
    s.settled.passes limits = s.passes limits := by
  rw [passes, violations_settled, passes]

theorem compile_settled (s : Schema) (limits : Limits) (options : Ddl.Options) :
    Ddl.compile limits options s.settled = Ddl.compile limits options s := by
  have tables : s.settled.tables.map (Ddl.TableDdl.ofTable options) =
      s.tables.map (Ddl.TableDdl.ofTable options) := by
    rw [settled, List.map_map]
    exact List.map_congr_left fun _ _ => rfl
  have compiled : Ddl.Compilation.ofSchema options s.settled = .ofSchema options s := by
    rw [Ddl.Compilation.ofSchema, tables]
    rfl
  rw [Ddl.compile, passes_settled, compiled, violations_settled, Ddl.compile]

end Schema

end Schemata
