import Mathlib.Data.List.Nodup
import Mathlib.Tactic.MkIffOfInductiveProp
import Schemata.Rules.Naming

/-! The forms of versions and names, said without the scanners that test them, and the violations
that names can have. -/

namespace Schemata

/-- What may follow a complete text: nothing, or one line feed. -/
def IsLineEnd (cs : List Char) : Prop := cs = [] ∨ cs = ['\n']

/-- Decimal digits of any script, at least one. -/
def IsNumber (cs : List Char) : Prop := cs ≠ [] ∧ ∀ c ∈ cs, Text.isDecimalDigit c = true

/-- Three numbers with points between them. -/
def IsVersion (text : String) : Prop :=
  ∃ major minor patch lineEnd, IsNumber major ∧ IsNumber minor ∧ IsNumber patch ∧
    IsLineEnd lineEnd ∧
    text.toList = major ++ '.' :: (minor ++ '.' :: (patch ++ lineEnd))

def IsSmallLetter (c : Char) : Prop := 'a' ≤ c ∧ c ≤ 'z'

/-- A small letter, then small letters, digits and underscores. -/
def IsIdentifier (name : String) : Prop :=
  ∃ first rest lineEnd, IsSmallLetter first ∧
    (∀ c ∈ rest, IsSmallLetter c ∨ Text.isAsciiDigit c = true ∨ c = '_') ∧ IsLineEnd lineEnd ∧
    name.toList = first :: (rest ++ lineEnd)

/-! ### Versions -/

private def number? (cs : List Char) : Option (List Char) :=
  if (cs.takeWhile Text.isDecimalDigit).isEmpty then none
  else some (cs.dropWhile Text.isDecimalDigit)

private def afterPoint? : List Char → Option (List Char)
  | '.' :: rest => some rest
  | _ => none

private theorem isVersionText_eq (text : String) : isVersionText text =
    match (number? text.toList >>= afterPoint?) >>= number? >>= afterPoint? >>= number? with
    | some rest => rest.isEmpty || rest == ['\n']
    | none => false := rfl

private theorem number?_append (number : IsNumber digits)
    (stops : ∀ c ∈ rest.head?, Text.isDecimalDigit c = false) :
    number? (digits ++ rest) = some rest := by
  have cut : rest.takeWhile Text.isDecimalDigit = [] ∧
      rest.dropWhile Text.isDecimalDigit = rest := by
    cases rest with
    | nil => simp
    | cons c rest => simp [stops c rfl]
  simp [number?, List.takeWhile_append_of_pos number.2, List.dropWhile_append_of_pos number.2,
    cut, number.1]

private theorem eq_append_of_number? (read : number? cs = some rest) :
    ∃ digits, IsNumber digits ∧ cs = digits ++ rest := by
  unfold number? at read
  split at read
  · simp at read
  · rename_i nonempty
    refine ⟨cs.takeWhile Text.isDecimalDigit, ⟨by simpa using nonempty, ?_⟩, ?_⟩
    · exact List.all_eq_true.mp List.all_takeWhile
    · rw [← Option.some.inj read, List.takeWhile_append_dropWhile]

private theorem eq_cons_of_afterPoint? (read : afterPoint? cs = some rest) : cs = '.' :: rest := by
  unfold afterPoint? at read
  split at read
  · rw [Option.some.inj read]
  · simp at read

theorem isVersionText_iff (text : String) : isVersionText text = true ↔ IsVersion text := by
  rw [isVersionText_eq]
  constructor
  · intro accepted
    split at accepted
    · rename_i lineEnd read
      obtain ⟨fourth, read, patchRead⟩ := Option.bind_eq_some_iff.mp read
      obtain ⟨third, read, pointRead⟩ := Option.bind_eq_some_iff.mp read
      obtain ⟨second, read, minorRead⟩ := Option.bind_eq_some_iff.mp read
      obtain ⟨first, majorRead, firstPoint⟩ := Option.bind_eq_some_iff.mp read
      obtain ⟨major, majorNumber, start⟩ := eq_append_of_number? majorRead
      obtain ⟨minor, minorNumber, middle⟩ := eq_append_of_number? minorRead
      obtain ⟨patch, patchNumber, last⟩ := eq_append_of_number? patchRead
      refine ⟨major, minor, patch, lineEnd, majorNumber, minorNumber, patchNumber, ?_, ?_⟩
      · simpa [IsLineEnd] using accepted
      · rw [start, eq_cons_of_afterPoint? firstPoint, middle,
          eq_cons_of_afterPoint? pointRead, last]
    · simp at accepted
  · rintro ⟨major, minor, patch, lineEnd, majorNumber, minorNumber, patchNumber, ends, shape⟩
    have point (cs : List Char) : ∀ c ∈ ('.' :: cs).head?, Text.isDecimalDigit c = false := by
      simpa using (by decide : Text.isDecimalDigit '.' = false)
    have stops : ∀ c ∈ lineEnd.head?, Text.isDecimalDigit c = false := by
      rcases ends with rfl | rfl
      · simp
      · simpa using (by decide : Text.isDecimalDigit '\n' = false)
    have majorRead := shape ▸ number?_append majorNumber (point _)
    have minorRead := number?_append minorNumber (point (patch ++ lineEnd))
    have patchRead := number?_append patchNumber stops
    rw [majorRead]
    simp only [Option.bind_eq_bind, Option.bind_some, afterPoint?, minorRead, patchRead]
    rcases ends with rfl | rfl <;> rfl

/-! ### Identifiers -/

private theorem eq_withoutLineEnd_append (cs : List Char) :
    ∃ lineEnd, IsLineEnd lineEnd ∧ cs = withoutLineEnd cs ++ lineEnd := by
  unfold withoutLineEnd
  split
  · rename_i last
    exact ⟨['\n'], .inr rfl, (List.dropLast_append_getLast? _ last).symm⟩
  · exact ⟨[], .inl rfl, (List.append_nil _).symm⟩

private theorem withoutLineEnd_append (ends : IsLineEnd lineEnd) (clean : '\n' ∉ cs) :
    withoutLineEnd (cs ++ lineEnd) = cs := by
  rcases ends with rfl | rfl
  · have last : cs.getLast? ≠ some '\n' := fun same => clean (List.mem_of_getLast? same)
    simp [withoutLineEnd, last]
  · simp [withoutLineEnd]

theorem isSnakeCase_iff (name : String) : isSnakeCase name = true ↔ IsIdentifier name := by
  constructor
  · intro accepted
    obtain ⟨lineEnd, ends, shape⟩ := eq_withoutLineEnd_append name.toList
    unfold isSnakeCase at accepted
    split at accepted
    · simp at accepted
    · rename_i first rest body
      obtain ⟨start, others⟩ := Bool.and_eq_true_iff.mp accepted
      refine ⟨first, rest, lineEnd, by simpa [IsSmallLetter] using start, ?_, ends, ?_⟩
      · intro c member
        simpa [IsSmallLetter, or_assoc] using List.all_eq_true.mp others c member
      · rw [shape, body, List.cons_append]
  · rintro ⟨first, rest, lineEnd, start, others, ends, shape⟩
    have clean : '\n' ∉ first :: rest := by
      intro member
      rcases List.mem_cons.mp member with same | later
      · exact absurd (same ▸ start) (by unfold IsSmallLetter; decide)
      · exact absurd (others _ later) (by unfold IsSmallLetter; decide)
    have body : withoutLineEnd name.toList = first :: rest := by
      rw [shape, ← List.cons_append, withoutLineEnd_append ends clean]
    unfold isSnakeCase
    rw [body]
    refine Bool.and_eq_true_iff.mpr ⟨by simpa [IsSmallLetter] using start, ?_⟩
    refine List.all_eq_true.mpr fun c member => ?_
    simpa [IsSmallLetter, or_assoc] using others c member

/-! ### Violations of names -/

/-- A name that is short enough and has the form of an identifier. -/
structure NameFits (limits : Limits) (name : String) : Prop where
  short : (name.length : Int) ≤ limits.nameLength
  form : IsIdentifier name

theorem nameViolations_eq_nil_iff (limits : Limits) (subject : Subject) :
    nameViolations limits subject = [] ↔ NameFits limits subject.name := by
  unfold nameViolations
  split
  · rename_i long
    exact ⟨fun none => by simp at none, fun fits => absurd fits.short (Int.not_le.mpr long)⟩
  · rename_i short
    have fits : NameFits limits subject.name ↔ isSnakeCase subject.name = true :=
      ⟨fun fits => (isSnakeCase_iff _).mpr fits.form,
        fun form => ⟨Int.not_lt.mp short, (isSnakeCase_iff _).mp form⟩⟩
    rw [fits]
    split <;> simp_all

/-- Names that differ from each other and from all names before them. -/
def FreshAfter (seen names : List String) : Prop := names.Nodup ∧ ∀ name ∈ names, name ∉ seen

theorem freshAfter_nil (names : List String) : FreshAfter [] names ↔ names.Nodup := by
  simp [FreshAfter]

theorem freshAfter_append (seen first rest : List String) :
    FreshAfter seen (first ++ rest) ↔
      FreshAfter seen first ∧ FreshAfter (first.reverse ++ seen) rest := by
  simp only [FreshAfter, List.nodup_append, List.mem_append, List.mem_reverse, not_or]
  constructor
  · rintro ⟨⟨firstDistinct, restDistinct, apart⟩, fresh⟩
    exact ⟨⟨firstDistinct, fun name member => fresh name (.inl member)⟩, restDistinct,
      fun name member =>
        ⟨fun earlier => apart name earlier name member rfl, fresh name (.inr member)⟩⟩
  · rintro ⟨⟨firstDistinct, firstFresh⟩, restDistinct, restFresh⟩
    refine ⟨⟨firstDistinct, restDistinct, ?_⟩, ?_⟩
    · intro name earlier other later same
      exact (restFresh other later).1 (same ▸ earlier)
    · intro name member
      exact member.elim (firstFresh name) fun later => (restFresh name later).2

theorem freshAfter_cons (seen rest : List String) (name : String) :
    FreshAfter seen (name :: rest) ↔ name ∉ seen ∧ FreshAfter (name :: seen) rest := by
  have split := freshAfter_append seen [name] rest
  simpa [FreshAfter] using split

theorem nameListViolations_eq_nil_iff (limits : Limits) {subject : String → Subject}
    (named : ∀ name, (subject name).name = name) (seen names : List String) :
    nameListViolations limits subject seen names = [] ↔
      (∀ name ∈ names, NameFits limits name) ∧ FreshAfter seen names := by
  induction names generalizing seen with
  | nil => simp [nameListViolations, FreshAfter]
  | cons name rest ih =>
    simp only [nameListViolations, List.append_eq_nil_iff, nameViolations_eq_nil_iff, named, ih,
      ite_eq_right_iff, List.cons_ne_nil, imp_false, List.contains_iff_mem, freshAfter_cons,
      List.forall_mem_cons]
    exact ⟨fun ⟨⟨fits, fresh⟩, others, later⟩ => ⟨⟨fits, others⟩, fresh, later⟩,
      fun ⟨⟨fits, others⟩, fresh, later⟩ => ⟨⟨fits, fresh⟩, others, later⟩⟩

namespace Table

def indexNames (table : Table) : List String := table.indexes.map (·.name)

/-- The name of a table and all names inside it have their form. -/
@[mk_iff]
structure NamesFit (limits : Limits) (table : Table) : Prop where
  self : NameFits limits table.name
  columns : ∀ name ∈ table.columnNames, NameFits limits name
  indexes : ∀ name ∈ table.indexNames, NameFits limits name
  distinct : table.columnNames.Nodup

end Table

private theorem namingFrom_eq_nil_iff (limits : Limits) (seenTables seenIndexes : List String)
    (tables : List Table) :
    namingFrom limits seenTables seenIndexes tables = [] ↔
      (∀ table ∈ tables, table.NamesFit limits) ∧ FreshAfter seenTables (tables.map (·.name)) ∧
        FreshAfter seenIndexes (tables.flatMap Table.indexNames) := by
  induction tables generalizing seenTables seenIndexes with
  | nil => simp [namingFrom, FreshAfter]
  | cons table rest ih =>
    have self := nameViolations_eq_nil_iff limits (.table table.name)
    have columns := nameListViolations_eq_nil_iff limits
      (fun name => rfl : ∀ name, (Subject.column table.name name).name = name) [] table.columnNames
    have indexes := nameListViolations_eq_nil_iff limits
      (fun name => rfl : ∀ name, (Subject.index table.name name).name = name) seenIndexes
      table.indexNames
    rw [Table.indexNames] at indexes
    simp only [namingFrom, List.append_eq_nil_iff, self, columns, indexes, ih, ite_eq_right_iff,
      List.cons_ne_nil, imp_false, List.contains_iff_mem, freshAfter_nil, List.map_cons,
      List.flatMap_cons, freshAfter_cons, freshAfter_append, List.forall_mem_cons,
        Table.namesFit_iff,
      Table.indexNames, Subject.name]
    constructor
    · rintro ⟨⟨⟨⟨selfFits, fresh⟩, columnsFit, distinct⟩, indexesFit, freshIndexes⟩,
        others, tables, rest⟩
      exact ⟨⟨⟨selfFits, columnsFit, indexesFit, distinct⟩, others⟩, ⟨fresh, tables⟩,
        freshIndexes, rest⟩
    · rintro ⟨⟨⟨selfFits, columnsFit, indexesFit, distinct⟩, others⟩, ⟨fresh, tables⟩,
        freshIndexes, rest⟩
      exact ⟨⟨⟨⟨selfFits, fresh⟩, columnsFit, distinct⟩, indexesFit, freshIndexes⟩,
        others, tables, rest⟩

/-- Names are reported exactly when one does not fit or stands twice where it may not. -/
theorem namingViolations_eq_nil_iff (schema : Schema) (limits : Limits) :
    namingViolations schema limits = [] ↔
      (∀ table ∈ schema.tables, table.NamesFit limits) ∧ schema.tableNames.Nodup ∧
        (schema.tables.flatMap Table.indexNames).Nodup := by
  rw [namingViolations, namingFrom_eq_nil_iff, freshAfter_nil, freshAfter_nil, Schema.tableNames]

theorem reservedNameViolations_eq_nil_iff (schema : Schema) :
    reservedNameViolations schema = [] ↔
      ∀ table ∈ schema.tables, Text.lower table.name ∉ reservedWords ∧
        ∀ name ∈ table.columnNames, Text.lower name ∉ reservedWords := by
  simp [reservedNameViolations, List.flatMap_eq_nil_iff, List.filterMap_eq_nil_iff, isReserved,
    Subject.name]

end Schemata
