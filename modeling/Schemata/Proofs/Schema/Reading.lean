import Schemata.Proofs.Shape.Reading
import Schemata.Schema.Decode

/-! What a value that reads as a schema holds, field by field. -/

namespace Schemata

open Checked Decode

variable {members : Members}

theorem Column.ofMembers_eq_valid_iff {column : Column} : ofMembers members = .valid column ↔
    required members "name" string = .valid column.name ∧
    required members "type" ColumnType.decode = .valid column.type ∧
    optional members ["nullable"] true boolean = .valid column.nullable ∧
    optional members ["default"] none decodeDefault = .valid column.default? ∧
    optional members ["unique"] false boolean = .valid column.unique ∧
    optional members ["primaryKey", "primary_key"] false boolean = .valid column.primaryKey ∧
    optional members ["references"] none (Decode.nullable Reference.decode) =
      .valid column.reference? := by
  simp only [ofMembers, seq_eq_valid_iff, map_eq_valid_iff]
  constructor
  · rintro ⟨-,
      ⟨-, ⟨-, ⟨-, ⟨-, ⟨-, ⟨_, name, rfl⟩, _, type, rfl⟩, _, nullable, rfl⟩, _, default, rfl⟩, _,
      unique, rfl⟩, _, primaryKey, rfl⟩, _, reference, rfl⟩
    exact ⟨name, type, nullable, default, unique, primaryKey, reference⟩
  · rintro ⟨name, type, nullable, default, unique, primaryKey, reference⟩
    exact ⟨_,
      ⟨_, ⟨_, ⟨_, ⟨_, ⟨_, ⟨_, name, rfl⟩, _, type, rfl⟩, _, nullable, rfl⟩, _, default, rfl⟩, _,
      unique, rfl⟩, _, primaryKey, rfl⟩, _, reference, rfl⟩

theorem Hints.ofMembers_eq_valid_iff {hints : Hints} : ofMembers members = .valid hints ↔
    optional members ["icon"] .none (nullable string) = .valid hints.icon? ∧
    optional members ["label"] .none (nullable string) = .valid hints.label? ∧
    optional members ["description"] .none (nullable string) = .valid hints.description? ∧
    optional members ["color"] .none (nullable string) = .valid hints.color? ∧
    optional members ["columns"] .none ColumnHints.decode = .valid ⟨hints.columns,
      hints.columns_plain⟩ ∧
    (extrasOf members).val = hints.extras := by
  simp only [ofMembers, seq_eq_valid_iff, map_eq_valid_iff]
  constructor
  · rintro ⟨-, ⟨-, ⟨-, ⟨-, ⟨_, icon, rfl⟩, _, label, rfl⟩, _, description, rfl⟩, _, color, rfl⟩,
      _, columns, rfl⟩
    exact ⟨icon, label, description, color, columns, rfl⟩
  · rintro ⟨icon, label, description, color, columns, extras⟩
    exact ⟨_, ⟨_, ⟨_, ⟨_, ⟨_, icon, rfl⟩, _, label, rfl⟩, _, description, rfl⟩, _, color, rfl⟩, _,
      columns, by simp only [extras]⟩

/-- The members of hints; hints that are not there have none. -/
def Hints.members? (hints? : Option Json) : Option Members := hints?.elim (some []) Json.texts?

theorem Hints.decode_eq_valid_iff {hints : Hints} : decode value = .valid hints ↔
    ∃ members, value.texts? = some members ∧ ofMembers members = .valid hints := by
  cases value with
  | mixed entries =>
    simp only [decode, seq_eq_valid_iff, map_eq_valid_iff, named_eq_valid_iff]
    constructor
    · rintro ⟨-, ⟨_, read, rfl⟩, members, named, rfl⟩
      have same := Json.members?_of_texts? named
      exact ⟨members, named, by rwa [← Option.some.inj same]⟩
    · rintro ⟨members, named, read⟩
      have same := Json.members?_of_texts? named
      exact ⟨_, ⟨hints, by rwa [← Option.some.inj same] at read, rfl⟩, members, named, rfl⟩
  | _ => simp [decode, record, Json.members?, Json.texts?, Checked.fail]

theorem Hints.optional_eq_valid_iff {hints : Hints} :
    Decode.optional members ["ui_hints"] .none decode = .valid hints ↔
      ∃ given, members? (members.lookup "ui_hints") = some given ∧ ofMembers given =
        .valid hints := by
  cases found : members.lookup "ui_hints" with
  | some value => rw [optional_of_lookup found, under_eq_valid_iff, decode_eq_valid_iff]; rfl
  | none =>
    have empty : ofMembers [] = .valid .none := rfl
    simp [Decode.optional, Decode.spelled?, found, members?, empty]

theorem Table.ofMembers_eq_valid_iff {table : Table} : ofMembers members = .valid table ↔
    required members "name" string = .valid table.name ∧
    optional members ["columns"] [] (list Column.decode) = .valid table.columns ∧
    optional members ["indexes"] [] (list Index.decode) = .valid table.indexes ∧
    optional members ["ui_hints"] .none Hints.decode = .valid table.hints := by
  simp only [ofMembers, seq_eq_valid_iff, map_eq_valid_iff]
  constructor
  · rintro ⟨-, ⟨-, ⟨-, ⟨_, name, rfl⟩, _, columns, rfl⟩, _, indexes, rfl⟩, _, hints, rfl⟩
    exact ⟨name, columns, indexes, hints⟩
  · rintro ⟨name, columns, indexes, hints⟩
    exact ⟨_, ⟨_, ⟨_, ⟨_, name, rfl⟩, _, columns, rfl⟩, _, indexes, rfl⟩, _, hints, rfl⟩

theorem Relationship.ofMembers_eq_valid_iff {r : Relationship} : ofMembers members = .valid r ↔
    required members "from_table" string = .valid r.fromTable ∧
    required members "from_column" string = .valid r.fromColumn ∧
    required members "to_table" string = .valid r.toTable ∧
    optional members ["to_column"] "id" string = .valid r.toColumn ∧
    optional members ["type", "cardinality"] .manyToOne Cardinality.decode =
      .valid r.cardinality := by
  simp only [ofMembers, seq_eq_valid_iff, map_eq_valid_iff]
  constructor
  · rintro ⟨-, ⟨-, ⟨-, ⟨-, ⟨_, fromTable, rfl⟩, _, fromColumn, rfl⟩, _, toTable, rfl⟩,
      _, toColumn, rfl⟩, _, cardinality, rfl⟩
    exact ⟨fromTable, fromColumn, toTable, toColumn, cardinality⟩
  · rintro ⟨fromTable, fromColumn, toTable, toColumn, cardinality⟩
    exact ⟨_, ⟨_, ⟨_, ⟨_, ⟨_, fromTable, rfl⟩, _, fromColumn, rfl⟩, _, toTable, rfl⟩,
      _, toColumn, rfl⟩, _, cardinality, rfl⟩

theorem Schema.ofMembers_eq_valid_iff {schema : Schema} : ofMembers members = .valid schema ↔
    optional members ["version"] "1.0.0" string = .valid schema.version ∧
    optional members ["tables"] [] (list Table.decode) = .valid schema.tables ∧
    optional members ["relationships"] [] (list Relationship.decode) =
      .valid schema.relationships := by
  simp only [ofMembers, seq_eq_valid_iff, map_eq_valid_iff]
  constructor
  · rintro ⟨-, ⟨-, ⟨_, version, rfl⟩, _, tables, rfl⟩, _, relationships, rfl⟩
    exact ⟨version, tables, relationships⟩
  · rintro ⟨version, tables, relationships⟩
    exact ⟨_, ⟨_, ⟨_, version, rfl⟩, _, tables, rfl⟩, _, relationships, rfl⟩

end Schemata
