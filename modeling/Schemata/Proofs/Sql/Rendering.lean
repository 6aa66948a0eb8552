import Mathlib.Data.List.TakeWhile
import Schemata.Proofs.Sql.Contained
import Schemata.Proofs.Sql.Quoting

/-! Defaults as they stand in statements: a known word, a number as it was given, or a text in
quotes. A number counts as one in the digits of any script, so that not all that stands unquoted is
a number of SQL. -/

namespace Schemata

/-! ### Digits have no small forms -/

namespace Text

private theorem lowerRuns_beside_digits : ∀ run ∈ lowerRuns, ∀ start ∈ decimalZeros,
    run.last < start ∨ start + 10 ≤ run.first := by decide +kernel

private theorem lowerExpansions_beside_digits : ∀ entry ∈ lowerExpansions, ∀ start ∈ decimalZeros,
    entry.1 < start ∨ start + 10 ≤ entry.1 := by decide +kernel

theorem isDecimalDigit_iff :
    isDecimalDigit c = true ↔ ∃ start ∈ decimalZeros, start ≤ c.toNat ∧ c.toNat < start + 10 := by
  simp [isDecimalDigit]

theorem uncovered_of_isDecimalDigit (digit : isDecimalDigit c = true) (run : CaseRun)
    (listed : run ∈ lowerRuns) : ¬(run.first ≤ c.toNat ∧ c.toNat ≤ run.last) := by
  obtain ⟨start, script, above, below⟩ := isDecimalDigit_iff.mp digit
  have apart := lowerRuns_beside_digits run listed start script
  omega

private theorem mapCase_of_isDecimalDigit (digit : isDecimalDigit c = true) :
    mapCase lowerExpansions lowerRuns c = [c] := by
  have unexpanded : lowerExpansions.lookup c.toNat = none := by
    rw [List.lookup_eq_none_iff]
    intro entry listed
    obtain ⟨start, script, above, below⟩ := isDecimalDigit_iff.mp digit
    have apart := lowerExpansions_beside_digits entry listed start script
    rw [bne_iff_ne]
    omega
  have unmoved : (lowerRuns.findSome? fun run => run.apply? c.toNat) = none := by
    rw [List.findSome?_eq_none_iff]
    intro run listed
    have uncovered := uncovered_of_isDecimalDigit digit run listed
    unfold CaseRun.apply?
    simp [uncovered]
  simp [mapCase, unexpanded, unmoved]

theorem lowerChar_of_isDecimalDigit (digit : isDecimalDigit c = true) : lowerChar c = [c] := by
  have uncased : ¬(c.val ≥ 'A'.val ∧ c.val ≤ 'Z'.val) :=
    uncovered_of_isDecimalDigit digit ⟨65, 90, 1, 32⟩ List.mem_cons_self
  unfold lowerChar
  split
  · have same : c.toLower = c := dif_neg uncased
    rw [same]
  · exact mapCase_of_isDecimalDigit digit

theorem lowerFrom_eq_self (small : ∀ c ∈ cs, c ≠ 'Σ' ∧ lowerChar c = [c]) (before : List Char) :
    lowerFrom before cs = cs := by
  induction cs generalizing before with
  | nil => rfl
  | cons c rest ih =>
    obtain ⟨⟨other, own⟩, others⟩ := List.forall_mem_cons.mp small
    simp [lowerFrom, other, own, ih others]

end Text

namespace Sql

variable {digit : Char → Bool} {cs more : List Char}

/-! ### Numbers -/

/-- One digit or more, and nothing else. -/
def IsDigits (digit : Char → Bool) (cs : List Char) : Prop := cs ≠ [] ∧ ∀ c ∈ cs, digit c = true

/-- Digits, and perhaps a point with more digits behind it. -/
inductive IsUnsigned (digit : Char → Bool) : List Char → Prop where
  | whole {cs : List Char} (digits : IsDigits digit cs) : IsUnsigned digit cs
  | fraction {cs more : List Char} (digits : IsDigits digit cs) (decimals : IsDigits digit more) :
    IsUnsigned digit (cs ++ '.' :: more)

/-- A number in some digits, perhaps with a minus. -/
inductive IsNumeral (digit : Char → Bool) : List Char → Prop where
  | positive {cs : List Char} (number : IsUnsigned digit cs) : IsNumeral digit cs
  | negative {cs : List Char} (number : IsUnsigned digit cs) : IsNumeral digit ('-' :: cs)

theorem IsUnsigned.char (number : IsUnsigned digit cs) : ∀ c ∈ cs, digit c = true ∨ c = '.' := by
  intro c member
  cases number with
  | whole digits => exact .inl (digits.2 c member)
  | fraction digits decimals =>
    rcases List.mem_append.mp member with before | behind
    · exact .inl (digits.2 c before)
    · rcases List.mem_cons.mp behind with point | after
      · exact .inr point
      · exact .inl (decimals.2 c after)

theorem IsNumeral.char (number : IsNumeral digit cs) :
    ∀ c ∈ cs, digit c = true ∨ c = '.' ∨ c = '-' := by
  intro c member
  cases number with
  | positive unsigned => exact (unsigned.char c member).imp_right .inl
  | negative unsigned =>
    rcases List.mem_cons.mp member with sign | inside
    · exact .inr (.inr sign)
    · exact (unsigned.char c inside).imp_right .inl

theorem isDigits_iff : IsDigits digit cs ↔ cs ≠ [] ∧ cs.all digit = true := by
  rw [IsDigits, List.all_eq_true]

/-- Digits that end at the point are taken up to it. -/
theorem isUnsigned_iff (unpointed : digit '.' = false) :
    IsUnsigned digit cs ↔ (!(cs.takeWhile digit).isEmpty &&
      match cs.dropWhile digit with
      | [] => true
      | '.' :: fraction => !fraction.isEmpty && fraction.all digit
      | _ => false) = true := by
  constructor
  · intro number
    cases number with
    | whole digits =>
      have taken : cs.takeWhile digit = cs := List.takeWhile_eq_self_iff.mpr digits.2
      have nothing : cs.dropWhile digit = [] := List.dropWhile_eq_nil_iff.mpr digits.2
      simp [taken, nothing, digits.1]
    | @fraction whole more digits decimals =>
      have stops : ¬digit '.' = true := by simp [unpointed]
      have taken : (whole ++ '.' :: more).takeWhile digit = whole := by
        rw [List.takeWhile_append_of_pos digits.2, List.takeWhile_cons_of_neg stops,
          List.append_nil]
      have pointed : (whole ++ '.' :: more).dropWhile digit = '.' :: more := by
        rw [List.dropWhile_append_of_pos digits.2, List.dropWhile_cons_of_neg stops]
      simpa [taken, pointed, digits.1] using isDigits_iff.mp decimals
  · intro taken
    rw [Bool.and_eq_true] at taken
    obtain ⟨something, after⟩ := taken
    have digits : IsDigits digit (cs.takeWhile digit) :=
      isDigits_iff.mpr ⟨by simpa using something, List.all_takeWhile⟩
    rw [← List.takeWhile_append_dropWhile (p := digit) (l := cs)]
    split at after
    · rename_i nothing
      rw [nothing, List.append_nil]
      exact .whole digits
    · rename_i fraction point
      rw [point]
      exact .fraction digits (isDigits_iff.mpr (by simpa using after))
    · cases after

/-- What counts as a number is one in the digits of any script. -/
theorem isNumberText_iff : isNumberText cs = true ↔ IsNumeral Text.isDecimalDigit cs := by
  have unpointed : Text.isDecimalDigit '.' = false := by decide
  by_cases signed : ∃ unsigned, cs = '-' :: unsigned
  · obtain ⟨unsigned, rfl⟩ := signed
    refine (isUnsigned_iff unpointed).symm.trans ⟨.negative, fun number => ?_⟩
    cases number with
    | positive number => exact absurd (number.char '-' List.mem_cons_self) (by decide)
    | negative number => exact number
  · have plain : isNumberText cs = true ↔ IsUnsigned Text.isDecimalDigit cs := by
      have unsigned : ∀ rest, cs = '-' :: rest → False := fun rest same => signed ⟨rest, same⟩
      rw [isNumberText.eq_2 cs unsigned]
      exact (isUnsigned_iff unpointed).symm
    refine plain.trans ⟨.positive, fun number => ?_⟩
    cases number with
    | positive number => exact number
    | negative number => exact absurd ⟨_, rfl⟩ signed

/-! ### Quoted texts -/

/-- Quotes stand in pairs only. -/
inductive QuotesPaired : List Char → Prop where
  | nil : QuotesPaired []
  | other {c : Char} {rest : List Char} (unquoted : c ≠ '\'') (paired : QuotesPaired rest) :
    QuotesPaired (c :: rest)
  | pair {rest : List Char} (paired : QuotesPaired rest) : QuotesPaired ('\'' :: '\'' :: rest)

/-- A quoted text: each quote inside is written twice. -/
def IsLiteral (text : String) : Prop :=
  ∃ inner, text.toList = '\'' :: inner ++ ['\''] ∧ QuotesPaired inner

theorem quotesPaired_doubleQuotes (cs : List Char) : QuotesPaired (doubleQuotes '\'' cs) := by
  induction cs with
  | nil => exact .nil
  | cons c rest ih =>
    by_cases quoted : c = '\''
    · rw [quoted, doubleQuotes_quote]
      exact .pair ih
    · rw [doubleQuotes_other quoted]
      exact .other quoted ih

theorem isLiteral_literal (text : String) : IsLiteral (literal text) :=
  ⟨doubleQuotes '\'' text.toList, by rw [literal, enquote, String.toList_ofList],
    quotesPaired_doubleQuotes _⟩

/-! ### How a default is read -/

/-- The words that a default may stand for. -/
def canonicalWords : List String :=
  ["NOW()", "CURRENT_TIMESTAMP", "CURRENT_DATE", "gen_random_uuid()", "NULL", "TRUE", "FALSE"]

/-- The words in small letters that name an expression or a truth value. -/
def knownWords : List String :=
  ["now()", "current_timestamp", "current_date", "gen_random_uuid()", "null", "true", "false"]

/-- A text without the quotes around it, if it has them. -/
def unquote (text : String) : String := ((unquoted? text.toList).map String.ofList).getD text

/-- The ways to read a text without blanks around it. -/
inductive Reads (text : String) : DefaultValue → Prop where
  | expression {e : DefaultExpression} (named : DefaultExpression.ofLower? (Text.lower text) =
      some e) :
    Reads text (.expression e)
  | boolean {value : Bool} (named : Text.lower text = if value then "true" else "false") :
    Reads text (.boolean value)
  | number (numeral : IsNumeral Text.isDecimalDigit text.toList) : Reads text (.number text)
  | string (worded : ¬IsNumeral Text.isDecimalDigit text.toList) :
      Reads text (.string (unquote text))

theorem reads_classify (raw : String) : Reads (Text.strip raw) (DefaultValue.classify raw) := by
  unfold DefaultValue.classify
  dsimp only
  split
  · rename_i named
    exact .expression named
  split
  · rename_i named
    exact .boolean named
  split
  · rename_i named
    exact .boolean named
  split
  · rename_i number
    exact .number (isNumberText_iff.mp number)
  · rename_i worded
    rw [isNumberText_iff] at worded
    have string := Reads.string worded
    rw [unquote] at string
    split <;> rename_i found <;> rw [found] at string <;> exact string

theorem not_isNumeral_of_word : ∀ word ∈ knownWords ++ canonicalWords,
    ¬IsNumeral Text.isDecimalDigit word.toList := by
  intro word listed numeral
  have lettered : ∀ word ∈ knownWords ++ canonicalWords,
      (word.toList.any fun c => !Text.isDecimalDigit c && c != '.' && c != '-') = true := by decide
  obtain ⟨c, member, letter⟩ := List.any_eq_true.mp (lettered word listed)
  rcases numeral.char c member with digit | rfl | rfl
  · simp [digit] at letter
  · cases letter
  · cases letter

theorem IsLiteral.apart (literal : IsLiteral text) :
    ¬IsNumeral Text.isDecimalDigit text.toList ∧ text ∉ canonicalWords := by
  obtain ⟨inner, same, -⟩ := literal
  have quote : '\'' ∈ text.toList := by simp [same]
  constructor
  · intro numeral
    exact absurd (numeral.char '\'' quote) (by decide)
  · intro listed
    have unquoted : ∀ word ∈ canonicalWords, '\'' ∉ word.toList := by decide
    exact unquoted text listed quote

theorem lower_of_isNumeral {text : String} (numeral : IsNumeral Text.isDecimalDigit text.toList) :
    Text.lower text = text := by
  have small : ∀ c ∈ text.toList, c ≠ 'Σ' ∧ Text.lowerChar c = [c] := by
    intro c member
    rcases numeral.char c member with digit | rfl | rfl
    · refine ⟨?_, Text.lowerChar_of_isDecimalDigit digit⟩
      rintro rfl
      exact absurd digit (by decide)
    · decide
    · decide
  rw [Text.lower, Text.lowerFrom_eq_self small, String.ofList_toList]

theorem known_of_ofLower? {small : String} (named : DefaultExpression.ofLower? small = some e) :
    small ∈ knownWords := by
  unfold DefaultExpression.ofLower? at named
  split at named
  case h_6 => cases named
  all_goals decide

theorem Reads.of_isNumeral {text : String} (reads : Reads text value)
    (numeral : IsNumeral Text.isDecimalDigit text.toList) : value = .number text := by
  have unknown : Text.lower text ∉ knownWords := by
    rw [lower_of_isNumeral numeral]
    exact fun known => not_isNumeral_of_word text (List.mem_append_left _ known) numeral
  cases reads with
  | expression named => exact absurd (known_of_ofLower? named) unknown
  | @boolean value named =>
    rw [named] at unknown
    cases value <;> exact absurd (by decide) unknown
  | number => rfl
  | string worded => exact absurd numeral worded

/-! ### How a default is written -/

/-- A default that SQL reads as a word, a number in the digits `0` to `9` or a quoted text. -/
inductive IsSql (text : String) : Prop where
  | word (listed : text ∈ canonicalWords)
  | number (numeral : IsNumeral Text.isAsciiDigit text.toList)
  | quoted (literal : IsLiteral text)

theorem Reads.sql_cases {text : String} (reads : Reads text value) :
    value.sql ∈ canonicalWords ∨ IsLiteral value.sql ∨
      value.sql = text ∧ IsNumeral Text.isDecimalDigit text.toList := by
  cases reads with
  | @expression e => exact .inl (by cases e <;> decide)
  | @boolean value => exact .inl (by cases value <;> decide)
  | number numeral => exact .inr (.inr ⟨rfl, numeral⟩)
  | string => exact .inr (.inl (isLiteral_literal _))

private theorem isSql_iff_of_isNumeral {text : String}
    (numeral : IsNumeral Text.isDecimalDigit text.toList) :
    IsSql text ↔ IsNumeral Text.isAsciiDigit text.toList := by
  refine ⟨fun sql => ?_, .number⟩
  cases sql with
  | word listed =>
    exact absurd numeral (not_isNumeral_of_word text (List.mem_append_right _ listed))
  | number ascii => exact ascii
  | quoted literal => exact absurd numeral literal.apart.1

theorem isSql_renderDefault_iff (raw : String) :
    IsSql (renderDefault raw) ↔ (IsNumeral Text.isDecimalDigit (Text.strip raw).toList →
      IsNumeral Text.isAsciiDigit (Text.strip raw).toList) := by
  have reads := reads_classify raw
  constructor
  · intro sql numeral
    rw [renderDefault, reads.of_isNumeral numeral] at sql
    exact (isSql_iff_of_isNumeral numeral).mp sql
  · intro ascii
    rcases reads.sql_cases with word | literal | ⟨same, numeral⟩
    · exact .word word
    · exact .quoted literal
    · rw [renderDefault, same]
      exact .number (ascii numeral)

/-- A default stands in a statement as a known word, as a quoted text, or, without quotes, as the
number that was given for it. Of these only a number in the digits of another script is no SQL. -/
theorem renderDefault_forms (raw : String) :
    (renderDefault raw ∈ canonicalWords ∨ IsLiteral (renderDefault raw) ∨
      renderDefault raw = Text.strip raw ∧ IsNumeral Text.isDecimalDigit (Text.strip raw).toList) ∧
    (IsSql (renderDefault raw) ↔ (IsNumeral Text.isDecimalDigit (Text.strip raw).toList →
      IsNumeral Text.isAsciiDigit (Text.strip raw).toList)) :=
  ⟨(reads_classify raw).sql_cases, isSql_renderDefault_iff raw⟩

/-- The Arabic digit three is left without quotes. -/
theorem foreign_digit_unquoted : ¬∀ raw, IsSql (renderDefault raw) := by
  intro sql
  have stripped : Text.strip "٣" = "٣" := by decide
  have three : IsNumeral Text.isDecimalDigit "٣".toList :=
    .positive (.whole (isDigits_iff.mpr (by decide)))
  have ascii := (isSql_renderDefault_iff "٣").mp (sql "٣")
  rw [stripped] at ascii
  exact absurd ((ascii three).char '٣' (by decide)) (by decide)

end Sql

end Schemata
