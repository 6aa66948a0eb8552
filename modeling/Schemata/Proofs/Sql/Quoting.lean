import Schemata.Sql.Quoting

/-! Where a quoted text ends: at the first quote that is not doubled, so a quoted name is read in
one way only, whatever follows it. -/

namespace Schemata.Sql

theorem doubleQuotes_quote (quote : Char) (rest : List Char) :
    doubleQuotes quote (quote :: rest) = quote :: quote :: doubleQuotes quote rest := if_pos rfl

theorem doubleQuotes_other (other : c ≠ quote) (rest : List Char) :
    doubleQuotes quote (c :: rest) = c :: doubleQuotes quote rest := if_neg other

private theorem doubleQuotes_cons_ne (single : after.head? ≠ some quote) :
    doubleQuotes quote (c :: rest) ++ more ≠ quote :: after := by
  intro same
  by_cases quoted : c = quote
  · subst quoted
    rw [doubleQuotes_quote] at same
    obtain ⟨-, rfl⟩ := List.cons.inj same
    exact single rfl
  · rw [doubleQuotes_other quoted] at same
    exact quoted (List.cons.inj same).1

/-- Doubled texts that end at a single quote end at the same place. -/
theorem doubleQuotes_append_inj
    (same : doubleQuotes quote first ++ quote :: after =
      doubleQuotes quote second ++ quote :: other)
    (single : after.head? ≠ some quote) (alone : other.head? ≠ some quote) : first = second := by
  induction first generalizing second with
  | nil =>
    cases second with
    | nil => rfl
    | cons d tail => exact absurd same.symm (doubleQuotes_cons_ne single)
  | cons c rest ih =>
    cases second with
    | nil => exact absurd same (doubleQuotes_cons_ne alone)
    | cons d tail =>
      by_cases quoted : c = quote <;> by_cases doubled : d = quote
      · subst c d
        rw [doubleQuotes_quote, doubleQuotes_quote] at same
        rw [ih (List.cons.inj (List.cons.inj same).2).2]
      · subst c
        rw [doubleQuotes_quote, doubleQuotes_other doubled] at same
        exact absurd (List.cons.inj same).1.symm doubled
      · subst d
        rw [doubleQuotes_quote, doubleQuotes_other quoted] at same
        exact absurd (List.cons.inj same).1 quoted
      · rw [doubleQuotes_other quoted, doubleQuotes_other doubled] at same
        obtain ⟨rfl, tails⟩ := List.cons.inj same
        rw [ih tails]

/-- A quoted name is known from any text that starts with it and goes on with something else than a
quote. -/
theorem identifier_append_inj {after other : List Char}
    (same : (identifier first).toList ++ after = (identifier second).toList ++ other)
    (single : after.head? ≠ some '"') (alone : other.head? ≠ some '"') : first = second := by
  simp only [identifier, enquote, String.toList_ofList, List.cons_append, List.append_assoc,
    List.nil_append, List.cons.injEq, true_and] at same
  exact String.toList_inj.mp (doubleQuotes_append_inj same single alone)

end Schemata.Sql
