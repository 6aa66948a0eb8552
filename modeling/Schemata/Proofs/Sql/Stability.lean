import Mathlib.Data.List.DropRight
import Schemata.Proofs.Sql.Rendering

/-! Defaults that are read back. What stands in a statement for a default is read as that default
again, so that it does not matter how often a default is written and read. -/

namespace Schemata

namespace Text

private theorem stripChars_eq_rdropWhile (cs : List Char) :
    stripChars cs = (cs.dropWhile isBlank).rdropWhile isBlank := rfl

private theorem strip_strip (text : String) : strip (strip text) = strip text := by
  have front : (stripChars text.toList).dropWhile isBlank = stripChars text.toList := by
    rw [stripChars_eq_rdropWhile, List.dropWhile_eq_self_iff]
    intro filled
    have first := List.dropWhile_get_zero_not isBlank text.toList
      (filled.trans_le (List.rdropWhile_prefix isBlank _).length_le)
    have same := (List.rdropWhile_prefix isBlank (text.toList.dropWhile isBlank)).getElem filled
    simpa [same] using first
  rw [strip, strip, String.toList_ofList, stripChars_eq_rdropWhile, front, stripChars_eq_rdropWhile,
    List.rdropWhile_idempotent]

end Text

namespace Sql

/-! ### Quoted texts -/

private theorem undoubleQuotes_other (other : c ≠ quote) (cs : List Char) :
    undoubleQuotes quote (c :: cs) = c :: undoubleQuotes quote cs := by
  cases cs with
  | nil => simp [undoubleQuotes]
  | cons d rest => simp [undoubleQuotes, other]

private theorem undoubleQuotes_pair (quote : Char) (cs : List Char) :
    undoubleQuotes quote (quote :: quote :: cs) = quote :: undoubleQuotes quote cs := by
  simp [undoubleQuotes]

/-- From left to right each pair is read as the quote that it was written for. -/
theorem undoubleQuotes_doubleQuotes (quote : Char) (cs : List Char) :
    undoubleQuotes quote (doubleQuotes quote cs) = cs := by
  induction cs with
  | nil => simp [doubleQuotes, undoubleQuotes]
  | cons c rest ih =>
    by_cases quoted : c = quote
    · subst quoted
      rw [doubleQuotes_quote, undoubleQuotes_pair, ih]
    · rw [doubleQuotes_other quoted, undoubleQuotes_other quoted, ih]

private theorem unquoted?_enquote (cs : List Char) : unquoted? (enquote '\'' cs) = some cs := by
  simp [unquoted?, enquote, undoubleQuotes_doubleQuotes]

private theorem unquote_literal (text : String) : unquote (literal text) = text := by
  simp [unquote, literal, unquoted?_enquote]

private theorem strip_literal (text : String) : Text.strip (literal text) = literal text := by
  have full : Text.isBlank '\'' = false := by decide
  simp [Text.strip, Text.stripChars, literal, enquote, full]

private theorem lower_literal (text : String) : '\'' ∈ (Text.lower (literal text)).toList := by
  have small : Text.lowerChar '\'' = ['\''] := by decide
  simp [Text.lower, literal, enquote, Text.lowerFrom, small]

private theorem unquoted_knownWords : ∀ word ∈ knownWords, '\'' ∉ word.toList := by decide

theorem Reads.of_literal (reads : Reads (literal text) value) : value = .string text := by
  have unknown : Text.lower (literal text) ∉ knownWords :=
    fun known => unquoted_knownWords _ known (lower_literal text)
  cases reads with
  | expression named => exact absurd (known_of_ofLower? named) unknown
  | @boolean truth named =>
    rw [named] at unknown
    cases truth <;> exact absurd (by decide) unknown
  | number numeral => exact absurd numeral (isLiteral_literal text).apart.1
  | string => rw [unquote_literal]

theorem classify_literal (text : String) : DefaultValue.classify (literal text) = .string text := by
  have reads := reads_classify (literal text)
  rw [strip_literal] at reads
  exact reads.of_literal

/-! ### All defaults -/

private theorem classify_expression (e : DefaultExpression) :
    DefaultValue.classify e.sql = .expression e := by
  cases e <;> decide

private theorem classify_boolean (value : Bool) :
    DefaultValue.classify (DefaultValue.boolean value).sql = .boolean value := by
  cases value <;> decide

private theorem classify_renderDefault (raw : String) :
    DefaultValue.classify (renderDefault raw) = DefaultValue.classify raw := by
  have reads := reads_classify raw
  rw [renderDefault]
  generalize DefaultValue.classify raw = value at reads
  cases reads with
  | expression => exact classify_expression _
  | boolean => exact classify_boolean _
  | number numeral =>
    have again := reads_classify (Text.strip raw)
    rw [Text.strip_strip] at again
    exact again.of_isNumeral numeral
  | string => exact classify_literal _

/-- A quoted text is read as the text and written as it stands. Any other default is read as the
same value, of the same kind, when it has been written, and is written the same again. -/
theorem renderDefault_stable :
    (∀ text, DefaultValue.classify (literal text) = .string text ∧ renderDefault (literal text) =
      literal text) ∧
    ∀ raw, DefaultValue.classify (renderDefault raw) = DefaultValue.classify raw ∧
      renderDefault (renderDefault raw) = renderDefault raw := by
  refine ⟨fun text => ?_, fun raw => ?_⟩
  · have string := classify_literal text
    exact ⟨string, by rw [renderDefault, string]; rfl⟩
  · have same := classify_renderDefault raw
    exact ⟨same, by rw [renderDefault, same, renderDefault]⟩

end Sql

end Schemata
