import Schemata.Proofs.Sql.Quoting

/-! How a database cuts a statement: names in double quotes, texts in single quotes, a doubled quote
inside either one for the quote itself, and every other character on its own. -/

namespace Schemata.Sql

/-- Names stand in double quotes, texts in single ones. -/
inductive Quote where
  | double
  | single
  deriving DecidableEq, Repr

def Quote.char : Quote → Char
  | .double => '"'
  | .single => '\''

def Quote.of? (c : Char) : Option Quote :=
  if c = '"' then some .double else if c = '\'' then some .single else none

@[simp] theorem Quote.of?_char (quote : Quote) : Quote.of? quote.char = some quote := by
  cases quote <;> rfl

theorem Quote.of?_eq_some_iff : Quote.of? c = some quote ↔ c = quote.char := by
  constructor
  · intro known
    unfold Quote.of? at known
    split at known
    · obtain rfl := Option.some.inj known
      assumption
    · split at known
      · obtain rfl := Option.some.inj known
        assumption
      · cases known
  · rintro rfl
    exact Quote.of?_char quote

/-- A piece of a statement: a quoted text as it reads, or a character outside all quotes. -/
inductive Token where
  | quoted (quote : Quote) (content : String)
  | plain (c : Char)
  deriving DecidableEq, Repr

/-- A piece as it is written. -/
def Token.written : Token → List Char
  | .quoted quote content => enquote quote.char content.toList
  | .plain c => [c]

/-- Where a reader stands: outside all quotes, or inside them with what was read there. -/
inductive Place where
  | outside
  | inside (quote : Quote) (inner : List Char)

/-- The pieces from a place on, unless the text ends inside quotes. -/
def lexFrom : Place → List Char → Option (List Token)
  | .outside, [] => some []
  | .outside, c :: rest =>
    match Quote.of? c with
    | some quote => lexFrom (.inside quote []) rest
    | none => (lexFrom .outside rest).map (.plain c :: ·)
  | .inside _ _, [] => none
  | .inside quote inner, [c] =>
    if c = quote.char then some [.quoted quote (.ofList inner)] else none
  | .inside quote inner, c :: d :: rest =>
    if c = quote.char then
      if d = quote.char then lexFrom (.inside quote (inner ++ [d])) rest
      else (lexFrom .outside (d :: rest)).map (.quoted quote (.ofList inner) :: ·)
    else lexFrom (.inside quote (inner ++ [c])) (d :: rest)

/-- The pieces of a whole text. -/
def lex (text : String) : Option (List Token) := lexFrom .outside text.toList

example : lex "a\"b\"\"c\"" = some [.plain 'a', .quoted .double "b\"c"] := by cbv

/-- No quote stands in front, so what comes before is not read on. -/
def StartsPlain (cs : List Char) : Prop := ∀ c ∈ cs.head?, Quote.of? c = none

variable {place : Place} {quote : Quote} {inner cs rest : List Char} {tokens : List Token}

theorem lexFrom_plain (plain : Quote.of? c = none) :
    lexFrom .outside (c :: rest) = (lexFrom .outside rest).map (.plain c :: ·) := by
  simp only [lexFrom, plain]

theorem lexFrom_opened :
    lexFrom .outside (quote.char :: rest) = lexFrom (.inside quote []) rest := by
  simp only [lexFrom, Quote.of?_char]

theorem lexFrom_inner (other : c ≠ quote.char) :
    lexFrom (.inside quote inner) (c :: rest) = lexFrom (.inside quote (inner ++ [c])) rest := by
  cases rest with
  | nil => simp only [lexFrom, if_neg other]
  | cons d more => simp only [lexFrom, if_neg other]

theorem lexFrom_doubled :
    lexFrom (.inside quote inner) (quote.char :: quote.char :: rest)
      = lexFrom (.inside quote (inner ++ [quote.char])) rest := by
  simp only [lexFrom, if_true]

theorem lexFrom_closed (single : rest.head? ≠ some quote.char) :
    lexFrom (.inside quote inner) (quote.char :: rest)
      = (lexFrom .outside rest).map (.quoted quote (.ofList inner) :: ·) := by
  cases rest with
  | nil => simp only [lexFrom, if_true, Option.map_some]
  | cons d more =>
    have other : d ≠ quote.char := by simpa using single
    simp only [lexFrom, if_true, if_neg other]

theorem StartsPlain.single (startsPlain : StartsPlain cs) : cs.head? ≠ some quote.char := by
  intro quoted
  have plain := startsPlain quote.char quoted
  rw [Quote.of?_char] at plain
  cases plain

/-- A text that is read to its end outside quotes is read alike in front of another one. -/
theorem lexFrom_append (known : lexFrom place cs = some tokens) (startsPlain : StartsPlain rest) :
    lexFrom place (cs ++ rest) = (lexFrom .outside rest).map (tokens ++ ·) := by
  fun_induction lexFrom place cs generalizing tokens with
  | case1 =>
    obtain rfl := Option.some.inj known
    simp
  | case2 c cs quote opens ih =>
    obtain rfl := Quote.of?_eq_some_iff.mp opens
    rw [List.cons_append, lexFrom_opened]
    exact ih known
  | case3 c cs plain ih =>
    obtain ⟨others, found, rfl⟩ := Option.map_eq_some_iff.mp known
    rw [List.cons_append, lexFrom_plain plain, ih found, Option.map_map]
    rfl
  | case4 => cases known
  | case5 quote inner =>
    obtain rfl := Option.some.inj known
    exact lexFrom_closed startsPlain.single
  | case6 => cases known
  | case7 quote inner cs ih =>
    rw [List.cons_append, List.cons_append, lexFrom_doubled]
    exact ih known
  | case8 quote inner d cs other ih =>
    obtain ⟨others, found, rfl⟩ := Option.map_eq_some_iff.mp known
    have single : (d :: cs ++ rest).head? ≠ some quote.char := by simpa using other
    rw [List.cons_append, lexFrom_closed single, ih found, Option.map_map]
    rfl
  | case9 quote inner c d cs other ih =>
    rw [List.cons_append, lexFrom_inner other]
    exact ih known

/-- What stands between quotes is read as it was before it was quoted. -/
theorem lexFrom_doubleQuotes (single : rest.head? ≠ some quote.char) :
    lexFrom (.inside quote inner) (doubleQuotes quote.char cs ++ quote.char :: rest)
      = (lexFrom .outside rest).map (.quoted quote (.ofList (inner ++ cs)) :: ·) := by
  induction cs generalizing inner with
  | nil => simpa [doubleQuotes] using lexFrom_closed single
  | cons c cs ih =>
    by_cases doubled : c = quote.char
    · subst doubled
      rw [doubleQuotes_quote, List.cons_append, List.cons_append, lexFrom_doubled, ih]
      simp
    · rw [doubleQuotes_other doubled, List.cons_append, lexFrom_inner doubled, ih]
      simp

theorem lexFrom_enquote (quote : Quote) (cs : List Char) :
    lexFrom .outside (enquote quote.char cs) = some [.quoted quote (.ofList cs)] := by
  have closed : lexFrom (.inside quote []) (doubleQuotes quote.char cs ++ [quote.char])
      = some [.quoted quote (.ofList cs)] := lexFrom_doubleQuotes (by simp)
  rw [enquote, List.cons_append, lexFrom_opened, closed]

/-- What a reader has behind it in a quoted text. -/
def Place.written : Place → List Char
  | .outside => []
  | .inside quote inner => quote.char :: doubleQuotes quote.char inner

private theorem doubleQuotes_append (quote : Char) (first second : List Char) :
    doubleQuotes quote (first ++ second) = doubleQuotes quote first ++
      doubleQuotes quote second := by
  induction first with
  | nil => rfl
  | cons c rest ih => by_cases doubled : c = quote <;> simp [doubleQuotes, doubled, ih]

theorem lexFrom_written (known : lexFrom place cs = some tokens) :
    tokens.flatMap Token.written = place.written ++ cs := by
  fun_induction lexFrom place cs generalizing tokens with
  | case1 =>
    obtain rfl := Option.some.inj known
    rfl
  | case2 c cs quote opens ih =>
    obtain rfl := Quote.of?_eq_some_iff.mp opens
    exact ih known
  | case3 c cs plain ih =>
    obtain ⟨others, found, rfl⟩ := Option.map_eq_some_iff.mp known
    rw [List.flatMap_cons, ih found]
    rfl
  | case4 => cases known
  | case5 quote inner =>
    obtain rfl := Option.some.inj known
    simp [Token.written, Place.written, enquote]
  | case6 => cases known
  | case7 quote inner cs ih =>
    rw [ih known]
    simp [Place.written, doubleQuotes_append, doubleQuotes]
  | case8 quote inner d cs other ih =>
    obtain ⟨others, found, rfl⟩ := Option.map_eq_some_iff.mp known
    rw [List.flatMap_cons, ih found]
    simp [Token.written, Place.written, enquote]
  | case9 quote inner c d cs other ih =>
    rw [ih known]
    simp [Place.written, doubleQuotes_append, doubleQuotes, other]

end Schemata.Sql
