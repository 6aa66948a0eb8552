import Schemata.Proofs.Ddl.Script
import Schemata.Text.Search

/-! The lines of a script before its transaction. They are comments and empty lines, unless the name
of a table that is not the last one ends in a line feed: the names after it then stand on a line of
their own. -/

namespace Schemata

/-! ### Pieces of texts -/

namespace Text

variable {separator : Char} {cs first second : List Char}

theorem pieces_ne_nil (separator : Char) (cs : List Char) : pieces separator cs ≠ [] := by
  cases cs with
  | nil => exact List.cons_ne_nil _ _
  | cons c rest =>
    rw [pieces]
    split
    · exact List.cons_ne_nil _ _
    · split <;> exact List.cons_ne_nil _ _

theorem pieces_cons_of_ne (other : c ≠ separator) (read : pieces separator cs = piece :: more) :
    pieces separator (c :: cs) = (c :: piece) :: more := by
  rw [pieces, if_neg other, read]

theorem pieces_append_of_not_mem (clean : separator ∉ first)
    (read : pieces separator cs = piece :: more) :
    pieces separator (first ++ cs) = (first ++ piece) :: more := by
  induction first with
  | nil => exact read
  | cons c rest ih =>
    obtain ⟨other, later⟩ := List.ne_and_not_mem_of_not_mem_cons clean
    exact pieces_cons_of_ne other.symm (ih later)

theorem pieces_of_not_mem (clean : separator ∉ cs) : pieces separator cs = [cs] := by
  simpa using pieces_append_of_not_mem clean (rfl : pieces separator [] = [[]])

theorem pieces_append_cons (separator : Char) (first second : List Char) :
    pieces separator (first ++ separator :: second) = pieces separator first ++
      pieces separator second := by
  induction first with
  | nil => simp [pieces]
  | cons c rest ih =>
    rw [List.cons_append]
    by_cases same : c = separator
    · rw [pieces, if_pos same, ih, pieces, if_pos same, List.cons_append]
    · obtain ⟨piece, more, read⟩ := List.exists_cons_of_ne_nil (pieces_ne_nil separator rest)
      rw [pieces_cons_of_ne same read, pieces_cons_of_ne same (by rw [ih, read, List.cons_append]),
        List.cons_append]

end Text

namespace Ddl

/-- The lines of a text. -/
def linesOf (text : String) : List (List Char) := Text.pieces '\n' text.toList

private theorem linesOf_intercalate {parts : List String} (nonempty : parts ≠ []) :
    linesOf ("\n".intercalate parts) = parts.flatMap linesOf := by
  induction parts with
  | nil => exact absurd rfl nonempty
  | cons part rest ih =>
    cases rest with
    | nil => simp
    | cons next more =>
      rw [String.intercalate_cons_cons, linesOf, String.toList_append, String.toList_append,
        List.append_assoc]
      have later := ih (List.cons_ne_nil next more)
      rw [List.flatMap_cons, ← later]
      exact Text.pieces_append_cons '\n' _ _

theorem mem_lines_of_lineEnd (clean : '\n' ∉ front) (ends : IsLineEnd lineEnd)
    (member : line ∈ Text.pieces '\n' (front ++ lineEnd)) : line = front ∨ line = [] := by
  rcases ends with rfl | rfl
  · rw [List.append_nil, Text.pieces_of_not_mem clean] at member
    exact .inl (List.mem_singleton.mp member)
  · rw [Text.pieces_append_cons, Text.pieces_of_not_mem clean] at member
    exact (List.mem_cons.mp member).imp_right List.mem_singleton.mp

/-! ### Lists of names -/

/-- What names and the commas between them consist of. -/
def IsListing (cs : List Char) : Prop :=
  ∀ c ∈ cs, IsSmallLetter c ∨ Text.isAsciiDigit c = true ∨ c ∈ ['_', ',', ' ']

theorem IsListing.clean (listing : IsListing cs) : '\n' ∉ cs := by
  intro member
  exact absurd (listing '\n' member) (by unfold IsSmallLetter; decide)

theorem IsListing.append (first : IsListing cs) (second : IsListing more) :
    IsListing (cs ++ more) :=
  List.forall_mem_append.mpr ⟨first, second⟩

private theorem comma_listing : IsListing [',', ' '] := by
  intro c member
  exact .inr (.inr (List.mem_cons_of_mem _ member))

/-- The names after a line feed. -/
def IsContinuation (line : List Char) : Prop := ∃ tail, IsListing tail ∧ line = [',', ' '] ++ tail

theorem listing_of_isIdentifier (identifier : IsIdentifier name) :
    ∃ body lineEnd, IsListing body ∧ IsLineEnd lineEnd ∧ name.toList = body ++ lineEnd := by
  obtain ⟨first, rest, lineEnd, start, others, ends, shape⟩ := identifier
  refine ⟨first :: rest, lineEnd, List.forall_mem_cons.mpr ⟨.inl start, fun c member => ?_⟩, ends,
    shape⟩
  rcases others c member with letter | digit | underscore
  · exact .inl letter
  · exact .inr (.inl digit)
  · exact .inr (.inr (by simp [underscore]))

variable {names : List String} {before line : List Char}

/-- The first of several names goes on with the line before it. The others stand on the same line,
unless a line feed ends the first one. -/
theorem lines_names_cons (identifier : IsIdentifier name) (clean : '\n' ∉ before) (next : String)
    (more : List String) : ∃ body, IsListing body ∧
      ('\n' ∉ name.toList ∧ Text.pieces '\n' (before ++
        (", ".intercalate (name :: next :: more)).toList) =
          Text.pieces '\n' (before ++ body ++ [',', ' '] ++
            (", ".intercalate (next :: more)).toList) ∨
        '\n' ∈ name.toList ∧ Text.pieces '\n' (before ++
          (", ".intercalate (name :: next :: more)).toList) =
          (before ++ body) :: Text.pieces '\n' ([',', ' '] ++
            (", ".intercalate (next :: more)).toList)) := by
  obtain ⟨body, lineEnd, listing, ends, written⟩ := listing_of_isIdentifier identifier
  have parted : (", ".intercalate (name :: next :: more)).toList =
      name.toList ++ ([',', ' '] ++ (", ".intercalate (next :: more)).toList) := by
    rw [String.intercalate_cons_cons, String.toList_append, String.toList_append, List.append_assoc]
    rfl
  refine ⟨body, listing, ends.imp ?_ ?_⟩
  · rintro rfl
    rw [List.append_nil] at written
    rw [parted, written, List.append_assoc, List.append_assoc]
    exact ⟨listing.clean, rfl⟩
  · rintro rfl
    have front : '\n' ∉ before ++ body := by simp [clean, listing.clean]
    rw [parted, written, List.append_assoc, ← List.append_assoc, List.cons_append,
      Text.pieces_append_cons, Text.pieces_of_not_mem front, List.nil_append, List.singleton_append]
    exact ⟨List.mem_append_right _ (List.mem_singleton_self _), rfl⟩

/-- The lines of a list of names are empty, go on from what stands before the list, or go on with
the names after a line feed. -/
theorem mem_lines_names (identifiers : ∀ name ∈ names, IsIdentifier name) (clean : '\n' ∉ before)
    (member : line ∈ Text.pieces '\n' (before ++ (", ".intercalate names).toList)) :
    line = [] ∨ (∃ tail, IsListing tail ∧ line = before ++ tail) ∨
      IsContinuation line ∧ ∃ name ∈ names.dropLast, '\n' ∈ name.toList := by
  induction names generalizing before with
  | nil =>
    rw [String.intercalate_nil, String.toList_empty, List.append_nil, Text.pieces_of_not_mem clean]
      at member
    exact .inr (.inl ⟨[], List.forall_mem_nil _, by simpa using member⟩)
  | cons name rest ih =>
    obtain ⟨identifier, others⟩ := List.forall_mem_cons.mp identifiers
    cases rest with
    | nil =>
      obtain ⟨body, lineEnd, listing, ends, written⟩ := listing_of_isIdentifier identifier
      have front : '\n' ∉ before ++ body := by simp [clean, listing.clean]
      rw [String.intercalate_singleton, written, ← List.append_assoc] at member
      rcases mem_lines_of_lineEnd front ends member with same | empty
      · exact .inr (.inl ⟨body, listing, same⟩)
      · exact .inl empty
    | cons next more =>
      obtain ⟨body, listing, ⟨-, lines⟩ | ⟨broken, lines⟩⟩ :=
        lines_names_cons identifier clean next more
      · have onward : '\n' ∉ before ++ body ++ [',', ' '] := by simp [clean, listing.clean]
        rw [lines] at member
        rcases ih others onward member with
          empty | ⟨tail, behind, same⟩ | ⟨continuation, other, inside, broken⟩
        · exact .inl empty
        · refine .inr (.inl ⟨body ++ ([',', ' '] ++ tail),
            listing.append (comma_listing.append behind), ?_⟩)
          simpa using same
        · exact .inr (.inr ⟨continuation, other, List.mem_cons_of_mem _ inside, broken⟩)
      · have here : ∃ other ∈ (name :: next :: more).dropLast, '\n' ∈ other.toList :=
          ⟨name, List.mem_cons_self, broken⟩
        rw [lines] at member
        rcases List.mem_cons.mp member with same | after
        · exact .inr (.inl ⟨body, listing, same⟩)
        · rcases ih others (by decide) after with empty | continuation | ⟨continuation, -⟩
          · exact .inl empty
          · exact .inr (.inr ⟨continuation, here⟩)
          · exact .inr (.inr ⟨continuation, here⟩)

/-- After a line feed in one name there is a line for the next ones. -/
theorem exists_continuation (identifiers : ∀ name ∈ names, IsIdentifier name)
    (clean : '\n' ∉ before) (inside : name ∈ names.dropLast) (broken : '\n' ∈ name.toList) :
    ∃ line ∈ Text.pieces '\n' (before ++ (", ".intercalate names).toList), IsContinuation line := by
  induction names generalizing before with
  | nil => cases inside
  | cons first rest ih =>
    obtain ⟨identifier, others⟩ := List.forall_mem_cons.mp identifiers
    cases rest with
    | nil => cases inside
    | cons next more =>
      obtain ⟨body, listing, ⟨whole, lines⟩ | ⟨-, lines⟩⟩ :=
        lines_names_cons identifier clean next more
      · rw [lines]
        rcases List.mem_cons.mp inside with rfl | later
        · exact absurd broken whole
        · exact ih others (by simp [clean, listing.clean]) later
      · rw [lines]
        obtain ⟨piece, pieces, read⟩ :=
          List.exists_cons_of_ne_nil (Text.pieces_ne_nil '\n'
            (", ".intercalate (next :: more)).toList)
        have start := Text.pieces_append_of_not_mem (by decide : '\n' ∉ [',', ' ']) read
        have member : [',', ' '] ++ piece ∈
            Text.pieces '\n' ([',', ' '] ++ (", ".intercalate (next :: more)).toList) := by
          rw [start]
          exact List.mem_cons_self
        refine ⟨_, List.mem_cons_of_mem _ member, ?_⟩
        rcases mem_lines_names others (by decide) member with
          empty | continuation | ⟨continuation, -⟩
        · cases empty
        · exact continuation
        · exact continuation

/-! ### The header -/

/-- A line that does nothing: it is empty or a comment. -/
def IsIdle (line : List Char) : Prop := line = [] ∨ ['-', '-'] <+: line

instance (line : List Char) : Decidable (IsIdle line) :=
  inferInstanceAs (Decidable (line = [] ∨ ['-', '-'] <+: line))

theorem IsContinuation.not_isIdle (continuation : IsContinuation line) : ¬IsIdle line := by
  obtain ⟨tail, -, rfl⟩ := continuation
  simp [IsIdle]

/-- The lines of a header and of the empty line after it. -/
def Compilation.headerLines (c : Compilation) : List (List Char) :=
  (c.header ++ [""]).flatMap linesOf

/-- The lines of a script before its transaction. -/
def Compilation.openingLines (c : Compilation) : List (List Char) :=
  (linesOf c.text).takeWhile (· != "BEGIN;".toList)

private theorem idle_version (proper : IsVersion version) :
    ∀ line ∈ linesOf ("-- SchemaForge generated schema v" ++ version), IsIdle line := by
  obtain ⟨major, minor, patch, lineEnd, majorDigits, minorDigits, patchDigits, ends, shape⟩ :=
    proper
  have clean {cs : List Char} (number : IsNumber cs) : '\n' ∉ cs := by
    intro member
    exact absurd (number.2 _ member) (by decide)
  have front : '\n' ∉ "-- SchemaForge generated schema v".toList ++ major ++
      '.' :: (minor ++ '.' :: patch) := by
    simp [clean majorDigits, clean minorDigits, clean patchDigits]
  intro line member
  have lines : line ∈ Text.pieces '\n'
      ("-- SchemaForge generated schema v".toList ++ major ++
        '.' :: (minor ++ '.' :: patch) ++ lineEnd) := by
    simpa [linesOf, shape] using member
  rcases mem_lines_of_lineEnd front ends lines with rfl | rfl
  · exact .inr ⟨_, rfl⟩
  · exact .inl rfl

variable {limits : Limits} {schema : Schema} (options : Options)

theorem isIdentifier_tableNames (sound : schema.Sound limits) :
    ∀ name ∈ schema.tableNames, IsIdentifier name := by
  intro name listed
  obtain ⟨table, member, rfl⟩ := List.mem_map.mp listed
  exact (sound.names table member).self.form

/-- In the header of a proper schema all lines are idle but those with the names after a line
feed. -/
theorem header_cases (sound : schema.Sound limits) :
    ∀ line ∈ (Compilation.ofSchema options schema).headerLines,
      IsIdle line ∨ IsContinuation line ∧ ∃ name ∈ schema.tableNames.dropLast,
        '\n' ∈ name.toList := by
  have notice : ∀ line ∈ linesOf "-- DO NOT MANUALLY EDIT" ++ linesOf "", IsIdle line := by decide
  intro line member
  simp only [Compilation.headerLines, Compilation.header, List.cons_append, List.nil_append,
    List.flatMap_cons, List.flatMap_nil, List.append_nil, List.mem_append,
    Compilation.tableNames_ofSchema] at member
  rcases member with version | tables | last
  · exact .inl (idle_version sound.version line version)
  · rw [linesOf, String.toList_append] at tables
    have identifiers := isIdentifier_tableNames sound
    rcases mem_lines_names identifiers (by decide) tables with empty | ⟨tail, -, same⟩ | continued
    · exact .inl (.inl empty)
    · exact .inl (.inr ⟨_, same.symm⟩)
    · exact .inr continued
  · exact .inl (notice line (List.mem_append.mpr last))

theorem exists_continuation_in_header (sound : schema.Sound limits)
    (inside : name ∈ schema.tableNames.dropLast) (broken : '\n' ∈ name.toList) :
    ∃ line ∈ (Compilation.ofSchema options schema).headerLines, IsContinuation line := by
  have clean : '\n' ∉ "-- Tables: ".toList := by decide
  obtain ⟨line, member, continuation⟩ :=
    exists_continuation (isIdentifier_tableNames sound) clean inside broken
  rw [← String.toList_append] at member
  refine ⟨line, List.mem_flatMap.mpr ⟨_, ?_, member⟩, continuation⟩
  rw [Compilation.header, Compilation.tableNames_ofSchema]
  exact List.mem_cons_of_mem _ List.mem_cons_self

private theorem linesOf_text (c : Compilation) : ∃ rest,
    linesOf c.text = c.headerLines ++ "BEGIN;".toList :: rest := by
  obtain ⟨body, -, same⟩ := c.text_eq_transaction
  have begin : linesOf "BEGIN;" = ["BEGIN;".toList] := by decide
  refine ⟨(body ++ ["COMMIT;", ""]).flatMap linesOf, ?_⟩
  rw [same, linesOf_intercalate (by simp)]
  simp [begin, Compilation.headerLines]

theorem openingLines_ofSchema (sound : schema.Sound limits) :
    (Compilation.ofSchema options schema).openingLines =
      (Compilation.ofSchema options schema).headerLines ∧
      ∃ rest, linesOf (Compilation.ofSchema options schema).text =
        (Compilation.ofSchema options schema).openingLines ++ "BEGIN;".toList :: rest := by
  have before : ∀ line ∈ (Compilation.ofSchema options schema).headerLines,
      (line != "BEGIN;".toList) = true := by
    intro line member
    rw [bne_iff_ne]
    rintro rfl
    rcases header_cases options sound _ member with idle | ⟨⟨tail, -, same⟩, -⟩
    · exact absurd idle (by decide)
    · cases same
  obtain ⟨rest, lines⟩ := linesOf_text (Compilation.ofSchema options schema)
  have opening : (Compilation.ofSchema options schema).openingLines =
      (Compilation.ofSchema options schema).headerLines := by
    rw [Compilation.openingLines, lines, List.takeWhile_append_of_pos before,
      List.takeWhile_cons_of_neg (by simp), List.append_nil]
  exact ⟨opening, rest, opening ▸ lines⟩

/-- Before the transaction of a script there are empty lines, comments and lines of names and
commas. All of them are empty or comments exactly when no name of a table but the last one holds a
line feed. -/
theorem opening_lines (limits : Limits) (options : Options) (schema : Schema)
    (passed : (validate (.schema schema) limits).passed = true) :
    ∃ c, compile limits options schema = .ok c ∧
      (∃ rest, linesOf c.text = c.openingLines ++ "BEGIN;".toList :: rest) ∧
      (∀ line ∈ c.openingLines, IsIdle line ∨ IsContinuation line) ∧
      ((∀ line ∈ c.openingLines, IsIdle line) ↔
        ∀ name ∈ schema.tableNames.dropLast, '\n' ∉ name.toList) := by
  have passes : schema.passes limits = true := passed
  have sound := (schema.passes_iff limits).mp passes
  obtain ⟨opening, transaction⟩ := openingLines_ofSchema options sound
  refine ⟨_, if_pos passes, transaction, ?_, ?_⟩ <;> rw [opening]
  · intro line member
    exact (header_cases options sound line member).imp_right And.left
  · constructor
    · intro idle name inside broken
      obtain ⟨line, member, continuation⟩ :=
        exists_continuation_in_header options sound inside broken
      exact continuation.not_isIdle (idle line member)
    · intro whole line member
      rcases header_cases options sound line member with idle | ⟨-, name, inside, broken⟩
      · exact idle
      · exact absurd broken (whole name inside)

end Ddl

/-- Deals whose name ends in a line feed, and companies after them. -/
def Schema.broken : Schema where
  version := "1.0.0"
  tables := ["deal\n", "company"].map fun name =>
    { name := name, columns := auditColumns, indexes := [], hints := .none }
  relationships := []

set_option maxRecDepth 100000 in
theorem Schema.broken_passed : (validate (.schema broken) .standard).passed = true := by
  decide +kernel

theorem Schema.broken_name : "deal\n" ∈ broken.tableNames.dropLast ∧
    '\n' ∈ "deal\n".toList := by decide

namespace Ddl

/-- Companies stand on a line of their own before the transaction. -/
theorem broken_opening_lines : (validate (.schema .broken) .standard).passed = true ∧
    ∃ c, compile .standard .standard .broken = .ok c ∧
      ∃ line ∈ c.openingLines, IsContinuation line := by
  have passed := Schema.broken_passed
  obtain ⟨c, compiled, -, cases, idle⟩ := opening_lines .standard .standard .broken passed
  have busy : ¬∀ line ∈ c.openingLines, IsIdle line := fun all =>
    idle.mp all _ Schema.broken_name.1 Schema.broken_name.2
  obtain ⟨line, member, other⟩ := not_forall₂.mp busy
  exact ⟨passed, c, compiled, line, member, (cases line member).resolve_left other⟩

/-- The lines before a transaction are not always empty or comments. -/
theorem opening_lines_not_always_idle : ¬ ∀ (limits : Limits) (options : Options) (schema : Schema),
    (validate (.schema schema) limits).passed = true → ∀ c, compile limits options schema = .ok c →
      ∀ line ∈ c.openingLines, IsIdle line := by
  intro always
  have passes : Schema.broken.passes .standard = true := Schema.broken_passed
  have sound := (Schema.passes_iff _ _).mp passes
  obtain ⟨line, member, continuation⟩ :=
    exists_continuation_in_header .standard sound Schema.broken_name.1 Schema.broken_name.2
  rw [← (openingLines_ofSchema .standard sound).1] at member
  exact continuation.not_isIdle (always .standard .standard .broken passes
    _ (if_pos passes) line member)

end Ddl

end Schemata
