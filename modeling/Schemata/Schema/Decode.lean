import Schemata.Decimal.Numeral
import Schemata.Schema.Basic
import Schemata.Shape.Decode

/-! Schemas out of data values. A member may be left out where its field has a usual value; two
members have a second spelling. -/

namespace Schemata

def ColumnType.decode : Json → Checked ColumnType := Decode.choice ColumnType.all ColumnType.sql

def DeleteAction.decode : Json → Checked DeleteAction :=
  Decode.choice DeleteAction.all DeleteAction.sql

def Cardinality.decode : Json → Checked Cardinality :=
  Decode.choice Cardinality.all Cardinality.word

def Reference.ofMembers (m : Members) : Checked Reference :=
  Reference.mk <$> Decode.required m "table" Decode.string
    <*> Decode.optional m ["column"] "id" Decode.string
    <*> Decode.optional m ["onDelete", "on_delete"] .noAction DeleteAction.decode

def Reference.decode : Json → Checked Reference := Decode.record "ColumnReference" ofMembers

/-- A default is text; a truth value or a number counts as the text that writes it, unless it is an
integer of too many digits. -/
def decodeDefault : Json → Checked (Option String)
  | .bool b => .valid (some (if b then "true" else "false"))
  | .int n =>
    if Decimal.digitLimit < (Nat.toDigits 10 n.natAbs).length then
      .fail (.rejected (Decimal.longIntegerText none))
    else .valid (some (toString n))
  | .double x => .valid (some x.toText)
  | value => Decode.nullable Decode.string value

def Column.ofMembers (m : Members) : Checked Column :=
  Column.mk <$> Decode.required m "name" Decode.string
    <*> Decode.required m "type" ColumnType.decode
    <*> Decode.optional m ["nullable"] true Decode.boolean
    <*> Decode.optional m ["default"] none decodeDefault
    <*> Decode.optional m ["unique"] false Decode.boolean
    <*> Decode.optional m ["primaryKey", "primary_key"] false Decode.boolean
    <*> Decode.optional m ["references"] none (Decode.nullable Reference.decode)

def Column.decode : Json → Checked Column := Decode.record "ColumnDefinition" ofMembers

def Index.ofMembers (m : Members) : Checked Index :=
  Index.mk <$> Decode.required m "name" Decode.string
    <*> Decode.required m "columns" (Decode.list Decode.string)
    <*> Decode.optional m ["unique"] false Decode.boolean

def Index.decode : Json → Checked Index := Decode.record "IndexDefinition" ofMembers

/-- The members that have no meaning of their own, as plain values. -/
def Hints.extrasOf (m : Members) : { extras : Members //
    (∀ extra ∈ extras, extra.1 ∉ hintNames) ∧ ∀ extra ∈ extras, extra.2.isPlain = true } :=
  ⟨Json.plainMembers (m.filter fun member => !hintNames.contains member.1), by
    intro extra found
    rw [Json.plainMembers_eq_map] at found
    obtain ⟨given, kept, rfl⟩ := List.mem_map.mp found
    simpa using (List.mem_filter.mp kept).2, Json.isPlain_of_mem_plainMembers⟩

/-- Hints of columns, as plain values. -/
abbrev ColumnHints :=
  { columns : List (String × Members) // ∀ column ∈ columns, ∀ hint ∈ column.2,
    hint.2.isPlain = true }

def ColumnHints.none : ColumnHints := ⟨[], Hints.none.columns_plain⟩

def ColumnHints.decode (value : Json) : Checked ColumnHints :=
  let settle (columns : List (String × Members)) : ColumnHints :=
    ⟨columns.map fun column => (column.1, Json.plainMembers column.2), by
      intro column found
      obtain ⟨given, -, rfl⟩ := List.mem_map.mp found
      exact Json.isPlain_of_mem_plainMembers⟩
  settle <$> Decode.dictionary Decode.object value

def Hints.ofMembers (m : Members) : Checked Hints :=
  let text := Decode.nullable Decode.string
  let build (icon label description color : Option String) (columns : ColumnHints) : Hints :=
    { icon? := icon, label? := label, description? := description, color? := color
      columns := columns.val
      columns_plain := columns.property
      extras := (extrasOf m).val
      extras_fresh := (extrasOf m).property.1
      extras_plain := (extrasOf m).property.2 }
  build <$> Decode.optional m ["icon"] .none text
    <*> Decode.optional m ["label"] .none text
    <*> Decode.optional m ["description"] .none text
    <*> Decode.optional m ["color"] .none text
    <*> Decode.optional m ["columns"] .none ColumnHints.decode

/-- All members of hints are carried along, so their names have to be texts. -/
def Hints.decode : Json → Checked Hints
  | .mixed entries =>
    let fault (name : Json) : ShapeError := ⟨[Decode.stepTo name], .unnamed⟩
    (fun hints _ => hints) <$> ofMembers (Json.named entries) <*> Decode.named fault entries
  | value => Decode.record "UIHints" ofMembers value

def Table.ofMembers (m : Members) : Checked Table :=
  Table.mk <$> Decode.required m "name" Decode.string
    <*> Decode.optional m ["columns"] [] (Decode.list Column.decode)
    <*> Decode.optional m ["indexes"] [] (Decode.list Index.decode)
    <*> Decode.optional m ["ui_hints"] .none Hints.decode

def Table.decode : Json → Checked Table := Decode.record "TableDefinition" ofMembers

def Relationship.ofMembers (m : Members) : Checked Relationship :=
  Relationship.mk <$> Decode.required m "from_table" Decode.string
    <*> Decode.required m "from_column" Decode.string
    <*> Decode.required m "to_table" Decode.string
    <*> Decode.optional m ["to_column"] "id" Decode.string
    <*> Decode.optional m ["type", "cardinality"] .manyToOne Cardinality.decode

def Relationship.decode : Json → Checked Relationship := Decode.record "Relationship" ofMembers

def Schema.ofMembers (m : Members) : Checked Schema :=
  Schema.mk <$> Decode.optional m ["version"] "1.0.0" Decode.string
    <*> Decode.optional m ["tables"] [] (Decode.list Table.decode)
    <*> Decode.optional m ["relationships"] [] (Decode.list Relationship.decode)

def Schema.decode : Json → Checked Schema := Decode.record "EntitySchema" ofMembers

end Schemata
