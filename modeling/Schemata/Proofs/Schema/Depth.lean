import Schemata.Proofs.Rules.Hints
import Schemata.Proofs.Rules.Sound
import Schemata.Schema.Payload

/-! Values nested too deep. The rules do not look into hints, so a schema may pass them and still
not be written out. -/

namespace Schemata

/-- A value inside of so many lists. -/
def Json.nested : Nat → Json
  | 0 => .null
  | depth + 1 => .arr [nested depth]

theorem Json.height_nested (depth : Nat) : (nested depth).height = depth + 1 := by
  induction depth with
  | zero => rfl
  | succ depth ih => simp [nested, height, heightOfItems, ih]

theorem Json.isPlain_nested (depth : Nat) : (nested depth).isPlain = true := by
  induction depth with
  | zero => rfl
  | succ depth ih => simp [nested, isPlain, arePlain, ih]

/-- Hints with a value of one level more than can be written out. -/
def Hints.buried : Hints :=
  { Hints.none with
    extras := [("layout", Json.nested Json.heightLimit)]
    extras_fresh := by simp [hintNames]
    extras_plain := by simp [Json.isPlain_nested] }

theorem Hints.buried_unwritable : Hints.buried.isWritable = false := by
  simp [isWritable, buried, Hints.none, Json.isWritable, Json.height_nested]

/-- Every schema that passes the rules also passes them with such hints, and then cannot be written
out. -/
theorem Schema.passes_withHints_buried {schema : Schema} {limits : Limits}
    (passes : schema.passes limits = true) :
    (schema.withHints .buried).passes limits = true ∧
      (schema.withHints .buried).isWritable = false := by
  refine ⟨by rw [Schema.passes, violations_withHints, ← Schema.passes, passes], ?_⟩
  obtain ⟨table, member⟩ :=
    List.exists_mem_of_length_pos ((schema.passes_iff limits).mp passes).tableCount.1
  rw [Schema.isWritable, List.all_eq_false]
  refine ⟨table.withHints .buried, List.mem_map_of_mem member, ?_⟩
  rw [Table.isWritable, Table.withHints, Hints.buried_unwritable]
  exact Bool.false_ne_true

/-- The schema of deals and companies with such hints. -/
def Schema.buried : Schema := deals.withHints .buried

theorem Schema.buried_passed : (validate (.schema buried) .standard).passed = true := by
  have passes : deals.passes .standard = true := deals_passed
  exact (passes_withHints_buried passes).1

theorem Schema.buried_unwritable : Schema.buried.isWritable = false := by
  have passes : deals.passes .standard = true := deals_passed
  exact (passes_withHints_buried passes).2

end Schemata
