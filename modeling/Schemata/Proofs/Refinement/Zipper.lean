import Schemata.Refinement.Timeline

/-! A line of schemas as a zipper: what came before the current schema and what was undone after it.
A step back or forth moves one schema across the current one; accepting a schema forgets what was
undone. -/

namespace Schemata

/-- The current schema between the past, its latest schema first, and the future, its next one
first. -/
structure SchemaZipper where
  past : List Schema
  current : Schema
  future : List Schema

namespace SchemaZipper

def start (schema : Schema) : SchemaZipper := ⟨[], schema, []⟩

def accept (z : SchemaZipper) (schema : Schema) : SchemaZipper := ⟨z.current :: z.past, schema, []⟩

def undo? (z : SchemaZipper) : Option SchemaZipper :=
  match z.past with
  | [] => none
  | previous :: past => some ⟨past, previous, z.current :: z.future⟩

def redo? (z : SchemaZipper) : Option SchemaZipper :=
  match z.future with
  | [] => none
  | next :: future => some ⟨z.current :: z.past, next, future⟩

/-- All schemas in the order in which they were accepted. -/
def history (z : SchemaZipper) : List Schema := z.past.reverse ++ z.current :: z.future

end SchemaZipper

namespace Timeline

/-- What a line of schemas shows of itself. -/
def zipper (t : Timeline) : SchemaZipper := ⟨t.past.reverse, t.current, t.future⟩

private theorem reverse_take_next (t : Timeline) :
    (t.schemas.take (t.index + 1)).reverse = t.current :: t.past.reverse := by
  rw [← List.take_append_getElem t.inBounds, List.reverse_append]
  rfl

theorem zipper_accept (t : Timeline) (schema : Schema) :
    (t.accept schema).zipper = t.zipper.accept schema := by
  have bound := t.inBounds
  have size : (t.schemas.take (t.index + 1)).length = t.index + 1 := by
    rw [List.length_take]
    omega
  have past : (t.accept schema).past = t.schemas.take (t.index + 1) := List.take_left' size
  have future : (t.accept schema).future = [] := by
    refine List.drop_eq_nil_of_le ?_
    simp only [accept, List.length_append, size, List.length_singleton]
    omega
  rw [zipper, past, reverse_take_next, current_accept, future]
  rfl

/-- Two neighbours of a line: the later one has the earlier one in its past, the earlier one has the
later one in its future. -/
private theorem zipper_neighbours (schemas : List Schema) (index : Nat)
    (inBounds : index + 1 < schemas.length) :
    let earlier : SchemaZipper := zipper ⟨schemas, index, Nat.lt_of_succ_lt inBounds⟩
    let later : SchemaZipper := zipper ⟨schemas, index + 1, inBounds⟩
    later.past = earlier.current :: earlier.past ∧ earlier.future = later.current :: later.future :=
  ⟨reverse_take_next ⟨schemas, index, Nat.lt_of_succ_lt inBounds⟩,
    List.drop_eq_getElem_cons inBounds⟩

theorem zipper_undo (t : Timeline) : t.undo?.map zipper = t.zipper.undo? := by
  obtain ⟨schemas, index, inBounds⟩ := t
  cases index with
  | zero => rfl
  | succ index =>
    obtain ⟨past, future⟩ := zipper_neighbours schemas index inBounds
    rw [SchemaZipper.undo?, past]
    simp only [undo?, Nat.zero_lt_succ, if_true, Nat.add_sub_cancel, Option.map_some, ← future]

theorem zipper_redo (t : Timeline) : t.redo?.map zipper = t.zipper.redo? := by
  obtain ⟨schemas, index, inBounds⟩ := t
  by_cases further : index + 1 < schemas.length
  · obtain ⟨past, future⟩ := zipper_neighbours schemas index further
    rw [SchemaZipper.redo?, future]
    simp only [redo?, dif_pos further, Option.map_some, ← past]
  · have future : (zipper ⟨schemas, index, inBounds⟩).future = [] :=
      List.drop_eq_nil_of_le (Nat.le_of_not_lt further)
    rw [SchemaZipper.redo?, future]
    simp only [redo?, dif_neg further, Option.map_none]

theorem history_zipper (t : Timeline) : t.zipper.history = t.schemas := by
  rw [SchemaZipper.history, zipper, List.reverse_reverse, past_append_current_append_future]

theorem length_past_zipper (t : Timeline) : t.zipper.past.length = t.index := by
  have bound := t.inBounds
  simp only [zipper, past, List.length_reverse, List.length_take]
  omega

end Timeline

end Schemata
