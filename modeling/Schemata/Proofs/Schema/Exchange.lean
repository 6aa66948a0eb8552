import Schemata.Proofs.History.Written
import Schemata.Proofs.Schema.Depth
import Schemata.Proofs.Schema.RoundTrip

/-! Schemas that are sent and read back. Whoever reads a payload has the schema that it was written
for, but for the hints of other names that are `null`, and nothing that is asked of the two tells
them apart: neither the payload nor the rules nor the statements. Only a schema with hints nested
too deep is not sent at all. -/

namespace Schemata

theorem Hints.settled_eq_iff {hints : Hints} :
    hints.settled = hints ↔ ∀ extra ∈ hints.extras, extra.2 ≠ .null := by
  have named (value : Json) : value.isNull = true ↔
      value = .null := by cases value <;> simp [Json.isNull]
  have kept : hints.settled = hints ↔ hints.settled.extras = hints.extras := by
    constructor
    · exact congrArg Hints.extras
    · intro same
      cases hints
      simp only [settled] at same ⊢
      simp only [same]
  rw [kept, settled, List.filter_eq_self]
  simp only [Bool.not_eq_true', ← Bool.not_eq_true, named]

namespace Schema

theorem settled_eq_iff {schema : Schema} : schema.settled = schema ↔
    ∀ table ∈ schema.tables, ∀ extra ∈ table.hints.extras, extra.2 ≠ .null := by
  have tables : schema.settled = schema ↔ schema.tables.map Table.settled = schema.tables := by
    cases schema
    simp [settled]
  have table (t : Table) : t.settled = t ↔ t.hints.settled = t.hints := by
    cases t
    simp [Table.settled]
  have each := List.map_inj_left (l := schema.tables) (f := Table.settled) (g := id)
  rw [List.map_id] at each
  rw [tables, each]
  simp only [id, table, Hints.settled_eq_iff]

/-- A schema that can be written out is sent whole: but for hints of other names that are `null` it
reads back as itself, is written out the same again, breaks the same rules and compiles to the same
statements. -/
theorem payload_read_back (s : Schema) (writable : s.isWritable = true) :
    ∃ payload, s.payload? = some payload ∧ decode payload = .valid s.settled ∧
      (s.settled = s ↔ ∀ table ∈ s.tables, ∀ extra ∈ table.hints.extras, extra.2 ≠ .null) ∧
      s.settled.payload? = some payload ∧
      (∀ limits, (validate (.raw payload) limits).violations =
        (validate (.schema s) limits).violations) ∧
      ∀ limits options, Ddl.compile limits options s.settled = Ddl.compile limits options s := by
  have read := s.decode_payload
  refine ⟨s.payload, if_pos writable, read, settled_eq_iff, ?_, fun limits => ?_, s.compile_settled⟩
  · rw [payload?, if_pos (settled_isWritable writable), payload_settled]
  · have shape : checkShape s.payload = .ok s.settled := by
      rw [payload, toJson, decode, Decode.record_obj] at read
      simp [checkShape, payload, toJson, read]
    simp only [validate, shape, violations_settled]

/-- Deals and companies with hints that are `null` or hold one. -/
def vagueDeals : Schema := deals.withHints
  { Hints.none with
    columns := [("title", [("help", .null)])]
    extras := [("layout", .null), ("theme", .arr [.null])]
    extras_fresh := by simp [hintNames]
    columns_plain := by simp [Json.isPlain]
    extras_plain := by simp [Json.isPlain, Json.arePlain] }

/-- Of these hints the one that is `null` itself is lost, and those with a `null` inside are
kept. -/
theorem vagueDeals_read_back : vagueDeals.isWritable = true ∧ ∃ payload,
    vagueDeals.payload? = some payload ∧ decode payload = .valid vagueDeals.settled ∧
      vagueDeals.settled ≠ vagueDeals ∧
      vagueDeals.settled.tables.map (·.hints.columns) = vagueDeals.tables.map (·.hints.columns) ∧
      vagueDeals.settled.tables.map (·.hints.extras) =
        vagueDeals.tables.map fun _ => [("theme", .arr [.null])] := by
  have writable : vagueDeals.isWritable = true := by decide
  obtain ⟨payload, sent, read, -⟩ := payload_read_back vagueDeals writable
  exact ⟨writable, payload, sent, read, by decide +kernel, rfl, rfl⟩

/-- Not every schema can be sent. -/
theorem not_always_sent : ¬ ∀ s : Schema, ∃ payload, s.payload? = some payload ∧
    decode payload = .valid s.settled := by
  intro sent
  obtain ⟨payload, written, -⟩ := sent buried
  rw [payload?, buried_unwritable] at written
  cases written

end Schema

end Schemata
