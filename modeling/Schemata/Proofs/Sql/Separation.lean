import Schemata.Proofs.Sql.Contained

/-! Texts that show where they end. When no text of a kind goes on to another one with a character
that may follow, a text of that kind is known from all that starts with it, and so is a list of them
with separators between. Single statements are such texts in front of anything but a quote, and
texts in which a character stands only inside quotes in front of that character. -/

namespace Schemata.Sql

/-- No text of a kind goes on to another one with a character that may follow. -/
def PrefixFree (kind : String → Prop) (follows : Char → Prop) : Prop :=
  ∀ text other c more, kind text → kind other → follows c → other.toList ≠ text.toList ++ c :: more

/-- What may stand behind the last text of a list: it starts with nothing that hides the end of that
text, and not with a separator and one more text. -/
structure Ends (kind : String → Prop) (follows : Char → Prop)
    (separator after : List Char) : Prop where
  next : ∀ c ∈ after.head?, follows c
  last : ∀ text, kind text → ¬ separator ++ text.toList <+: after

/-- Texts with a separator in front of each. -/
def separated (separator : List Char) (texts : List String) : List Char :=
  texts.flatMap fun text => separator ++ text.toList

theorem separated_append (separator : List Char) (texts others : List String) :
    separated separator (texts ++ others) = separated separator texts ++
      separated separator others :=
  List.flatMap_append

theorem toList_intercalate (separator : String) (nonempty : texts ≠ []) :
    separator.toList ++ (separator.intercalate texts).toList =
      separated separator.toList texts := by
  induction texts with
  | nil => exact absurd rfl nonempty
  | cons text rest ih =>
    cases rest with
    | nil => simp [separated]
    | cons next more =>
      have later := ih (List.cons_ne_nil next more)
      rw [String.intercalate_cons_cons, String.toList_append, String.toList_append,
        List.append_assoc, later]
      simp [separated]

namespace PrefixFree

variable {kind : String → Prop} {follows : Char → Prop} (free : PrefixFree kind follows)
include free

theorem append_inj (first : kind text) (second : kind other) (next : ∀ c ∈ after.head?, follows c)
    (onward : ∀ c ∈ rest.head?, follows c) (same : text.toList ++ after = other.toList ++ rest) :
    text = other ∧ after = rest := by
  rcases List.append_eq_append_iff.mp same with ⟨more, longer, cut⟩ | ⟨more, longer, cut⟩
  · cases more with
    | nil => exact ⟨(String.toList_inj.mp (by simpa using longer)).symm, by simpa using cut⟩
    | cons c more => exact absurd longer (free _ _ _ _ first second (next c (cut ▸ rfl)))
  · cases more with
    | nil => exact ⟨String.toList_inj.mp (by simpa using longer), by simpa using cut.symm⟩
    | cons c more => exact absurd longer (free _ _ _ _ second first (onward c (cut ▸ rfl)))

section Lists

variable {c : Char} {more : List Char} (starts : follows c)
include starts

omit free in
private theorem head?_separated_append (next : ∀ d ∈ after.head?, follows d) (texts : List String) :
    ∀ d ∈ (separated (c :: more) texts ++ after).head?, follows d := by
  cases texts with
  | nil => exact next
  | cons text texts =>
    rintro d ⟨rfl⟩
    exact starts

/-- The texts of a list are known from all that starts with the list. -/
theorem separated_append_inj {texts others : List String} (first : ∀ text ∈ texts, kind text)
    (second : ∀ text ∈ others, kind text) (ends : Ends kind follows (c :: more) after)
    (stops : Ends kind follows (c :: more) rest)
    (same : separated (c :: more) texts ++ after = separated (c :: more) others ++ rest) :
    texts = others ∧ after = rest := by
  induction texts generalizing others with
  | nil =>
    cases others with
    | nil => exact ⟨rfl, same⟩
    | cons other others =>
      refine absurd ?_ (ends.last other (second other (List.mem_cons_self ..)))
      exact ⟨separated (c :: more) others ++ rest, by simpa [separated] using same.symm⟩
  | cons text texts ih =>
    obtain ⟨known, texts_known⟩ := List.forall_mem_cons.mp first
    cases others with
    | nil =>
      refine absurd ?_ (stops.last text known)
      exact ⟨separated (c :: more) texts ++ after, by simpa [separated] using same⟩
    | cons other others =>
      obtain ⟨listed, others_listed⟩ := List.forall_mem_cons.mp second
      have cut : text.toList ++ (separated (c :: more) texts ++ after) =
          other.toList ++ (separated (c :: more) others ++ rest) := by
        simpa [separated] using same
      obtain ⟨rfl, tails⟩ := free.append_inj known listed
        (head?_separated_append starts ends.next texts)
        (head?_separated_append starts stops.next others) cut
      obtain ⟨rfl, behind⟩ := ih texts_known others_listed tails
      exact ⟨rfl, behind⟩

theorem intercalate_inj {separator : String} (separates : separator.toList = c :: more)
    (first : ∀ text ∈ texts, kind text) (second : ∀ text ∈ others, kind text)
    (nonempty : texts ≠ []) (something : others ≠ [])
    (same : separator.intercalate texts = separator.intercalate others) : texts = others := by
  have ends : Ends kind follows (c :: more) [] := ⟨by simp, by simp⟩
  have lists : separated (c :: more) texts = separated (c :: more) others := by
    rw [← separates, ← toList_intercalate separator nonempty, same,
      toList_intercalate separator something]
  refine (free.separated_append_inj starts first second ends ends ?_).1
  rw [lists]

end Lists

end PrefixFree

/-! ### Single statements -/

/-- A single statement does not go on after its semicolon. -/
theorem prefixFree_oneStatement :
    PrefixFree (fun text => ∃ quotes, OneStatement text quotes) (Quote.of? · = none) := by
  rintro text other c more ⟨_, body, read, inert, -⟩ ⟨_, longer, readOther,
    inertOther, -⟩ plain same
  have startsPlain : StartsPlain (c :: more) := by
    rintro _ ⟨rfl⟩
    exact plain
  rw [lex, same, lexFrom_append read startsPlain] at readOther
  obtain ⟨others, found, split⟩ := Option.map_eq_some_iff.mp readOther
  have something : others ≠ [] := by
    rintro rfl
    have nothing := lexFrom_written found
    simp [Place.written] at nothing
  have inside : Token.plain ';' ∈ longer := by
    have front := congrArg List.dropLast split
    rw [List.dropLast_append_of_ne_nil something, List.dropLast_concat] at front
    rw [← front]
    simp
  exact inertOther.unended inside

/-! ### Texts without a character outside quotes -/

/-- A text in which a character stands only inside quotes. -/
def Unbroken (c : Char) (text : String) : Prop :=
  ∃ tokens, lex text = some tokens ∧ .plain c ∉ tokens

/-- Words without quotes and without a character. -/
def isUnbroken (c : Char) (words : String) : Bool :=
  words.toList.all fun d => (Quote.of? d).isNone && d != c

theorem prefixFree_unbroken (plain : Quote.of? c = none) : PrefixFree (Unbroken c) (· = c) := by
  rintro text other d more ⟨tokens, read, -⟩ ⟨longer, readOther, absent⟩ rfl same
  have startsPlain : StartsPlain (d :: more) := by
    rintro _ ⟨rfl⟩
    exact plain
  rw [lex, same, lexFrom_append read startsPlain, lexFrom_plain plain, Option.map_map] at readOther
  obtain ⟨others, -, rfl⟩ := Option.map_eq_some_iff.mp readOther
  exact absent (List.mem_append_right _ (List.mem_cons_self ..))

namespace Unbroken

theorem enquote (quote : Quote) (content : String) (c : Char) :
    Unbroken c (.ofList (enquote quote.char content.toList)) :=
  ⟨_, by rw [lex, String.toList_ofList, lexFrom_enquote], by simp⟩

theorem of_identifier (name : String) : Unbroken c (identifier name) := enquote .double name c

private theorem of_literal (text : String) : Unbroken c (literal text) := enquote .single text c

theorem of_plain (plain : ∀ d ∈ words.toList, Quote.of? d = none ∧ d ≠ c) : Unbroken c words := by
  refine ⟨words.toList.map Token.plain, ?_, ?_⟩
  · have read := lexFrom_plain_append (fun d member => (plain d member).1) []
    simpa [lex, lexFrom] using read
  · rintro present
    obtain ⟨d, member, same⟩ := List.mem_map.mp present
    exact (plain d member).2 (Token.plain.inj same)

theorem of_words (words : isUnbroken c text = true) : Unbroken c text := by
  refine of_plain fun d member => ?_
  simpa using List.all_eq_true.mp words d member

theorem join (first : Unbroken c left) (glue : isUnbroken c words = true)
    (something : words.toList ≠ []) (second : Unbroken c right) :
    Unbroken c (left ++ words ++ right) := by
  obtain ⟨tokens, read, absent⟩ := first
  obtain ⟨others, readOther, without⟩ := second
  have plain : ∀ d ∈ words.toList, Quote.of? d = none ∧ d ≠ c := fun d member => by
    simpa using List.all_eq_true.mp glue d member
  refine ⟨tokens ++ (words.toList.map Token.plain ++ others), ?_, ?_⟩
  · rw [lex, String.toList_append, String.toList_append, List.append_assoc,
      lexFrom_join read (fun d member => (plain d member).1) something, ← lex, readOther,
        Option.map_some]
  · simp only [List.mem_append, List.mem_map, not_or]
    refine ⟨absent, ?_, without⟩
    rintro ⟨d, member, same⟩
    exact (plain d member).2 (Token.plain.inj same)

theorem intercalate (glue : isUnbroken c words = true) (something : words.toList ≠ [])
    (each : ∀ text ∈ texts, Unbroken c text) : Unbroken c (words.intercalate texts) := by
  induction texts with
  | nil => exact of_words rfl
  | cons text rest ih =>
    obtain ⟨first, later⟩ := List.forall_mem_cons.mp each
    cases rest with
    | nil => simpa using first
    | cons next more =>
      rw [String.intercalate_cons_cons]
      exact first.join glue something (ih later)

end Unbroken

/-! ### Defaults -/

private theorem char_of_isNumberText (number : isNumberText cs = true) :
    ∀ c ∈ cs, Text.isDecimalDigit c = true ∨ c = '.' ∨ c = '-' := by
  intro c member
  by_cases signed : ∃ unsigned, cs = '-' :: unsigned
  · obtain ⟨unsigned, rfl⟩ := signed
    simp only [isNumberText, Bool.and_eq_true] at number
    rcases List.mem_cons.mp member with rfl | inside
    · exact .inr (.inr rfl)
    · exact (digit_or_point_of_digits number.2 c inside).imp_right .inl
  · have unsigned : ∀ rest, cs = '-' :: rest → False := fun rest same => signed ⟨rest, same⟩
    simp only [isNumberText, Bool.and_eq_true] at number
    exact (digit_or_point_of_digits number.2 c member).imp_right .inl

theorem unbroken_classify (separator : c = ' ' ∨ c = ',') (raw : String) :
    Unbroken c (DefaultValue.classify raw).sql := by
  unfold DefaultValue.classify
  dsimp only
  split
  · rename_i e _
    rcases separator with rfl | rfl <;> cases e <;> exact .of_words (by decide)
  split
  · rcases separator with rfl | rfl <;> exact .of_words (by decide)
  split
  · rcases separator with rfl | rfl <;> exact .of_words (by decide)
  split
  · rename_i number
    refine .of_plain fun d member => ⟨(inert_of_isNumberText number).1 d member, ?_⟩
    rintro rfl
    have known := char_of_isNumberText number d member
    rcases separator with rfl | rfl <;> exact absurd known (by decide)
  split <;> exact .of_literal _

end Schemata.Sql
