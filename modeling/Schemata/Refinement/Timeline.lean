import Schemata.Schema.Basic

/-! The line of schemas that a session has gone through. Undone schemas stay behind the current one
until another schema is accepted. -/

namespace Schemata

/-- Schemas in the order in which they were accepted, and the place of the current one. -/
structure Timeline where
  schemas : List Schema
  index : Nat
  inBounds : index < schemas.length

namespace Timeline

def start (schema : Schema) : Timeline := ⟨[schema], 0, by simp⟩

def current (t : Timeline) : Schema := t.schemas.get ⟨t.index, t.inBounds⟩

/-- Drops everything behind the current schema and goes on to a new one. -/
def accept (t : Timeline) (schema : Schema) : Timeline :=
  ⟨t.schemas.take (t.index + 1) ++ [schema], t.index + 1, by
    have bound := t.inBounds
    simp only [List.length_append, List.length_take, List.length_singleton]
    omega⟩

/-- One step back; there is none before the first schema. -/
def undo? (t : Timeline) : Option Timeline :=
  if 0 < t.index then
    some ⟨t.schemas, t.index - 1, Nat.lt_of_le_of_lt (Nat.sub_le t.index 1) t.inBounds⟩
  else none

/-- One step forward; there is none behind the last schema. -/
def redo? (t : Timeline) : Option Timeline :=
  if h : t.index + 1 < t.schemas.length then some ⟨t.schemas, t.index + 1, h⟩ else none

def canUndo (t : Timeline) : Bool := t.undo?.isSome

def canRedo (t : Timeline) : Bool := t.redo?.isSome

/-- The schemas before the current one. -/
def past (t : Timeline) : List Schema := t.schemas.take t.index

/-- The schemas that were undone. -/
def future (t : Timeline) : List Schema := t.schemas.drop (t.index + 1)

theorem past_append_current_append_future (t : Timeline) :
    t.past ++ t.current :: t.future = t.schemas := by
  have cut := List.take_append_drop t.index t.schemas
  rw [List.drop_eq_getElem_cons t.inBounds] at cut
  exact cut

@[simp] theorem current_accept (t : Timeline) (schema : Schema) :
    (t.accept schema).current = schema := by
  have bound := t.inBounds
  have size : (t.schemas.take (t.index + 1)).length = t.index + 1 := by
    rw [List.length_take]
    omega
  simp only [current, accept, List.get_eq_getElem]
  rw [List.getElem_append_right (by omega)]
  simp

end Timeline

end Schemata
