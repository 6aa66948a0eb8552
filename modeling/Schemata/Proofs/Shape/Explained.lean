import Schemata.Rules.Validation

/-! A check that fails says why: no list of faults is empty. So a candidate that passes has the
shape of a schema. -/

namespace Schemata

namespace Checked

/-- A check that succeeds or reports a fault. -/
def Explained (c : Checked α) : Prop := c ≠ .invalid []

theorem explained_valid (a : α) : (valid a).Explained := by
  intro same
  cases same

theorem explained_fail (fault : ShapeFault) : (fail fault : Checked α).Explained := by
  intro same
  cases same

theorem Explained.map {c : Checked α} (explained : c.Explained) (f : α → β) :
    (f <$> c).Explained := by
  cases c with
  | valid a => exact explained_valid _
  | invalid errors => exact fun same => explained (congrArg invalid (invalid.inj same))

theorem Explained.seq {f : Checked (α → β)} {c : Checked α} (first : f.Explained)
    (second : c.Explained) : (f <*> c).Explained := by
  cases f with
  | valid f =>
    cases c with
    | valid a => exact explained_valid _
    | invalid errors => exact fun same => second (congrArg invalid (invalid.inj same))
  | invalid errors =>
    have some : errors ≠ [] := fun none => first (congrArg invalid none)
    cases c with
    | valid a => exact fun same => some (invalid.inj same)
    | invalid others => exact fun same => some (List.append_eq_nil_iff.mp (invalid.inj same)).1

theorem Explained.under {c : Checked α} (explained : c.Explained) (step : Step) :
    (c.under step).Explained := by
  cases c with
  | valid a => exact explained_valid a
  | invalid errors =>
    exact fun same => explained (congrArg invalid (List.map_eq_nil_iff.mp (invalid.inj same)))

theorem explained_ite {c d : Checked α} {condition : Prop} [Decidable condition]
    (first : c.Explained) (second : d.Explained) : (if condition then c else d).Explained := by
  split
  · exact first
  · exact second

end Checked

open Checked

namespace Decode

/-- A reader that reports a fault wherever it does not succeed. -/
def Explains (decode : Json → Checked α) : Prop := ∀ value, (decode value).Explained

variable {decode : Json → Checked α}

theorem explains_string : Explains string := by
  intro value
  cases value with
  | str s => exact explained_valid s
  | _ => exact explained_fail .string

theorem explains_boolean : Explains boolean := by
  have ofInt : ∀ n, (booleanOfInt n).Explained := fun n =>
    explained_ite (explained_valid false) (explained_ite (explained_valid true) (explained_fail _))
  intro value
  cases value with
  | bool b => exact explained_valid b
  | int n => exact explained_ite (ofInt n) (explained_fail .boolean)
  | double x =>
    rw [boolean]
    split
    · exact explained_ite (ofInt _) (explained_fail .boolean)
    · exact explained_fail .boolean
  | str s =>
    exact explained_ite (explained_valid true)
      (explained_ite (explained_valid false) (explained_fail .unclearBoolean))
  | _ => exact explained_fail .boolean

theorem explains_choice (all : List α) (spell : α → String) : Explains (choice all spell) := by
  intro value
  unfold choice
  dsimp only
  split
  · exact explained_valid _
  · exact explained_fail _

theorem Explains.nullable (explains : Explains decode) : Explains (nullable decode) := by
  intro value
  cases value with
  | null => exact explained_valid none
  | _ => exact (explains _).map some

theorem Explains.list (explains : Explains decode) : Explains (list decode) := by
  have onward : ∀ items n, (itemsFrom decode n items).Explained := by
    intro items
    induction items with
    | nil => exact fun n => explained_valid []
    | cons item rest ih => exact fun n =>
      (((explains item).under (.index n)).map List.cons).seq (ih (n + 1))
  intro value
  cases value with
  | arr items => exact onward items 0
  | _ => exact explained_fail .list

theorem explained_named (fault : Json → ShapeError) (entries : List (Json × Json)) :
    (named fault entries).Explained := by
  unfold named
  split
  · exact explained_valid _
  · rename_i some
    exact fun same => some (List.map_eq_nil_iff.mp (invalid.inj same))

private theorem explains_object : Explains object := by
  intro value
  cases value with
  | obj members => exact explained_valid members
  | mixed members => exact explained_named nameFault members
  | _ => exact explained_fail .dictionary

theorem Explains.dictionary (explains : Explains decode) : Explains (dictionary decode) := by
  have ofNamed : ∀ members, (entries decode members).Explained := by
    intro members
    induction members with
    | nil => exact explained_valid []
    | cons member rest ih => exact (((explains member.2).under (.key member.1)).map _).seq ih
  have ofMixed : ∀ members, (mixedEntries decode members).Explained := by
    intro members
    induction members with
    | nil => exact explained_valid []
    | cons member rest ih =>
      exact (((explained_named nameFault _).map _).seq ((explains member.2).under _)).seq ih
  intro value
  cases value with
  | obj members => exact ofNamed members
  | mixed members => exact ofMixed members
  | _ => exact explained_fail .dictionary

theorem explains_record (name : String) {ofMembers : Members → Checked α}
    (explained : ∀ members, (ofMembers members).Explained) : Explains (record name ofMembers) := by
  intro value
  unfold record
  split
  · exact explained _
  · exact explained_fail _

theorem Explains.optional (explains : Explains decode) (members : Members) (spellings : List String)
    (absent : α) : (optional members spellings absent decode).Explained := by
  unfold Decode.optional
  split
  · exact (explains _).under _
  · exact explained_valid absent

theorem Explains.required (explains : Explains decode) (members : Members) (name : String) :
    (required members name decode).Explained := by
  unfold Decode.required
  split
  · exact (explains _).under _
  · exact (explained_fail .missing).under _

end Decode

open Decode

private theorem explains_default : Explains decodeDefault := by
  intro value
  unfold decodeDefault
  split
  · exact explained_valid _
  · exact explained_ite (explained_fail _) (explained_valid _)
  · exact explained_valid _
  · exact explains_string.nullable _

theorem Reference.explains_decode : Explains Reference.decode :=
  explains_record _ fun m => (((explains_string.required m _).map _).seq
    (explains_string.optional m _ _)).seq ((explains_choice _ _).optional m _ _)

theorem Column.explains_decode : Explains Column.decode :=
  explains_record _ fun m => ((explains_string.required m _).map _)
    |>.seq ((explains_choice _ _).required m _)
    |>.seq (explains_boolean.optional m _ _)
    |>.seq (explains_default.optional m _ _)
    |>.seq (explains_boolean.optional m _ _)
    |>.seq (explains_boolean.optional m _ _)
    |>.seq (Reference.explains_decode.nullable.optional m _ _)

theorem Index.explains_decode : Explains Index.decode :=
  explains_record _ fun m => ((explains_string.required m _).map _)
    |>.seq (explains_string.list.required m _)
    |>.seq (explains_boolean.optional m _ _)

theorem ColumnHints.explains_decode : Explains ColumnHints.decode :=
  fun value => (explains_object.dictionary value).map _

theorem Hints.explained_ofMembers (m : Members) : (Hints.ofMembers m).Explained :=
  ((explains_string.nullable.optional m _ _).map _)
    |>.seq (explains_string.nullable.optional m _ _)
    |>.seq (explains_string.nullable.optional m _ _)
    |>.seq (explains_string.nullable.optional m _ _)
    |>.seq (ColumnHints.explains_decode.optional m _ _)

theorem Hints.explains_decode : Explains Hints.decode := by
  intro value
  unfold Hints.decode
  split
  · exact ((Hints.explained_ofMembers _).map _).seq (explained_named _ _)
  · exact explains_record _ Hints.explained_ofMembers _

theorem Table.explains_decode : Explains Table.decode :=
  explains_record _ fun m => ((explains_string.required m _).map _)
    |>.seq (Column.explains_decode.list.optional m _ _)
    |>.seq (Index.explains_decode.list.optional m _ _)
    |>.seq (Hints.explains_decode.optional m _ _)

theorem Relationship.explains_decode : Explains Relationship.decode :=
  explains_record _ fun m => ((explains_string.required m _).map _)
    |>.seq (explains_string.required m _)
    |>.seq (explains_string.required m _)
    |>.seq (explains_string.optional m _ _)
    |>.seq ((explains_choice _ _).optional m _ _)

theorem Schema.explained_ofMembers (m : Members) : (Schema.ofMembers m).Explained :=
  ((explains_string.optional m _ _).map _)
    |>.seq (Table.explains_decode.list.optional m _ _)
    |>.seq (Relationship.explains_decode.list.optional m _ _)

private theorem checkShape_ne_error_nil (value : Json) : checkShape value ≠ .error [] := by
  unfold checkShape
  split
  · rename_i members _
    have explained := Schema.explained_ofMembers members
    split
    · exact fun same => nomatch same
    · rename_i errors misshapen
      intro same
      have none : errors = [] := List.map_eq_nil_iff.mp (Except.error.inj same)
      exact explained (none ▸ misshapen)
  · exact fun same => nomatch same

/-- A candidate passes when a schema is accepted of it, and only then. -/
theorem passed_iff_accepted (candidate : Candidate) (limits : Limits) :
    (validate candidate limits).passed = true ↔
      ∃ schema, (validate candidate limits).accepted? = some schema := by
  constructor
  · intro passed
    cases candidate with
    | schema schema => exact ⟨schema, if_pos passed⟩
    | raw value =>
      cases shape : checkShape value with
      | ok schema =>
        have judged : validate (.raw value) limits = ⟨some schema, schema.violations limits⟩ := by
          simp only [validate, shape]
        rw [judged] at passed ⊢
        exact ⟨schema, if_pos passed⟩
      | error violations =>
        have judged : validate (.raw value) limits = ⟨none, violations⟩ := by
          simp only [validate, shape]
        rw [judged] at passed
        exact absurd (List.isEmpty_iff.mp passed ▸ shape) (checkShape_ne_error_nil value)
  · rintro ⟨schema, accepted⟩
    exact (Option.ite_none_right_eq_some.mp accepted).1

end Schemata
