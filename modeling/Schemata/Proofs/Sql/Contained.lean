import Mathlib.Data.List.Chain
import Mathlib.Data.List.Forall2
import Schemata.Proofs.Sql.Lexing
import Schemata.Sql.DefaultValue

/-! Texts that cannot break out of the statement that they stand in: they end outside quotes, end no
statement and begin no comment. Names, texts and defaults are such texts, whatever they hold, and so
is what fixed words join. -/

namespace Schemata.Sql

/-- A name as a piece of a statement. -/
def Token.name (name : String) : Token := .quoted .double name

/-- A text value as a piece of a statement. -/
def Token.text (text : String) : Token := .quoted .single text

def Token.isQuoted : Token → Bool
  | .quoted .. => true
  | .plain _ => false

/-- Pieces that end no statement and begin no comment. -/
structure Inert (tokens : List Token) : Prop where
  unended : .plain ';' ∉ tokens
  uncommented : tokens.IsChain fun first second => ¬(first = .plain '-' ∧ second = .plain '-')

/-- A text that stays inside its statement, with the quoted pieces that it holds. -/
def Contained (text : String) (quotes : List Token) : Prop :=
  ∃ tokens, lex text = some tokens ∧ Inert tokens ∧ tokens.filter Token.isQuoted = quotes

/-- A text that is one statement: nothing in it ends a statement before the semicolon at its end. -/
def OneStatement (text : String) (quotes : List Token) : Prop :=
  ∃ body, lex text = some (body ++ [.plain ';']) ∧ Inert body ∧ body.filter Token.isQuoted = quotes

/-- A character that opens no quotes, ends no statement and belongs to no comment. -/
def isHarmless (c : Char) : Bool := (Quote.of? c).isNone && c != ';' && c != '-'

/-- Words that may stand between any two texts. -/
def isGlue (words : String) : Bool := !words.toList.isEmpty && words.toList.all isHarmless

/-- Words that may end a statement. -/
def isEnding (words : String) : Bool :=
  words.toList.getLast? == some ';' && words.toList.dropLast.all isHarmless

def Harmless (cs : List Char) : Prop := ∀ c ∈ cs, isHarmless c = true

variable {cs : List Char} {tokens first second : List Token}
variable {left right words ending : String} {quotes leftQuotes rightQuotes : List Token}

namespace Harmless

theorem plain (harmless : Harmless cs) : ∀ c ∈ cs, Quote.of? c = none := by
  intro c member
  have known := harmless c member
  simp only [isHarmless, Bool.and_eq_true, Option.isNone_iff_eq_none] at known
  exact known.1.1

theorem absent (harmless : Harmless cs) (harmful : isHarmless c = false) :
    .plain c ∉ cs.map Token.plain := by
  intro present
  obtain ⟨d, member, same⟩ := List.mem_map.mp present
  obtain rfl := Token.plain.inj same
  rw [harmless d member] at harmful
  cases harmful

theorem inert (harmless : Harmless cs) : Inert (cs.map Token.plain) where
  unended := harmless.absent rfl
  uncommented := by
    apply List.Pairwise.isChain
    apply List.pairwise_of_forall_mem_list
    rintro _ present _ _ ⟨rfl, -⟩
    exact harmless.absent rfl present

end Harmless

theorem harmless_of_isGlue (glue : isGlue words = true) : Harmless words.toList := by
  rw [isGlue, Bool.and_eq_true, List.all_eq_true] at glue
  exact glue.2

private theorem ne_nil_of_isGlue (glue : isGlue words = true) : words.toList ≠ [] := by
  rw [isGlue, Bool.and_eq_true, Bool.not_eq_true', List.isEmpty_eq_false_iff] at glue
  exact glue.1

private theorem exists_of_isEnding (ends : isEnding ending = true) :
    ∃ front, ending.toList = front ++ [';'] ∧ Harmless front := by
  rw [isEnding, Bool.and_eq_true, beq_iff_eq, List.all_eq_true] at ends
  obtain ⟨front, same⟩ := List.getLast?_eq_some_iff.mp ends.1
  refine ⟨front, same, ?_⟩
  have harmless := ends.2
  rwa [same, List.dropLast_concat] at harmless

theorem Inert.append (left : Inert first) (right : Inert second)
    (apart : .plain '-' ∉ first.getLast? ∨ .plain '-' ∉ second.head?) :
    Inert (first ++ second) where
  unended := by
    rw [List.mem_append, not_or]
    exact ⟨left.unended, right.unended⟩
  uncommented := by
    apply left.uncommented.append right.uncommented
    rintro _ ends _ starts ⟨rfl, rfl⟩
    exact apart.elim (· ends) (· starts)

/-- A text may end in a dash and the next one start with one when there are words between them. -/
theorem Inert.join (left : Inert first) (right : Inert second) (harmless : Harmless cs)
    (something : cs ≠ []) :
    Inert (first ++ (cs.map Token.plain ++ second)) := by
  have dashless : Token.plain '-' ∉ cs.map Token.plain := harmless.absent rfl
  have onward : Inert (cs.map Token.plain ++ second) :=
    harmless.inert.append right (.inl fun ends => dashless (List.mem_of_getLast? ends))
  refine left.append onward (.inr fun starts => dashless ?_)
  obtain ⟨c, cs, rfl⟩ := List.exists_cons_of_ne_nil something
  obtain ⟨same⟩ := starts
  exact List.mem_cons_self

/-! ## Reading texts with words between them -/

theorem lexFrom_plain_append (plain : ∀ c ∈ cs, Quote.of? c = none) (rest : List Char) :
    lexFrom .outside (cs ++ rest) = (lexFrom .outside rest).map (cs.map Token.plain ++ ·) := by
  induction cs with
  | nil => simp
  | cons c cs ih =>
    obtain ⟨first, others⟩ := List.forall_mem_cons.mp plain
    rw [List.cons_append, lexFrom_plain first, ih others, Option.map_map]
    rfl

theorem lexFrom_join {between : List Char} (known : lexFrom .outside cs = some tokens)
    (plain : ∀ c ∈ between, Quote.of? c = none) (something : between ≠ []) (rest : List Char) :
    lexFrom .outside (cs ++ (between ++ rest))
      = (lexFrom .outside rest).map fun after => tokens ++ (between.map Token.plain ++ after) := by
  have startsPlain : StartsPlain (between ++ rest) := by
    obtain ⟨c, others, rfl⟩ := List.exists_cons_of_ne_nil something
    rintro _ ⟨rfl⟩
    exact plain c List.mem_cons_self
  rw [lexFrom_append known startsPlain, lexFrom_plain_append plain rest, Option.map_map]
  rfl

theorem filter_isQuoted_plain (cs : List Char) :
    (cs.map Token.plain).filter Token.isQuoted = [] := by
  simp [List.filter_eq_nil_iff, Token.isQuoted]

namespace Contained

theorem join (inLeft : Contained left leftQuotes) (glue : isGlue words = true)
    (inRight : Contained right rightQuotes) :
    Contained (left ++ words ++ right) (leftQuotes ++ rightQuotes) := by
  obtain ⟨first, readFirst, inertFirst, rfl⟩ := inLeft
  obtain ⟨second, readSecond, inertSecond, rfl⟩ := inRight
  have harmless := harmless_of_isGlue glue
  have something := ne_nil_of_isGlue glue
  refine ⟨first ++ (words.toList.map Token.plain ++ second), ?_,
    inertFirst.join inertSecond harmless something, ?_⟩
  · rw [lex, String.toList_append, String.toList_append, List.append_assoc,
      lexFrom_join readFirst harmless.plain something, ← lex, readSecond, Option.map_some]
  · simp only [List.filter_append, filter_isQuoted_plain, List.nil_append]

theorem empty : Contained "" [] := ⟨[], rfl, ⟨by simp, by simp⟩, rfl⟩

theorem trail (inLeft : Contained left quotes) (glue : isGlue words = true) :
    Contained (left ++ words) quotes := by
  simpa using inLeft.join glue empty

theorem lead (inRight : Contained right quotes) (glue : isGlue words = true) :
    Contained (words ++ right) quotes := by
  simpa using empty.join glue inRight

theorem close (inLeft : Contained left quotes) (ends : isEnding ending = true) :
    OneStatement (left ++ ending) quotes := by
  obtain ⟨tokens, read, inert, rfl⟩ := inLeft
  obtain ⟨front, same, harmless⟩ := exists_of_isEnding ends
  have plain : ∀ c ∈ ending.toList, Quote.of? c = none := by
    rw [same, List.forall_mem_append]
    exact ⟨harmless.plain, List.forall_mem_singleton.mpr rfl⟩
  refine ⟨tokens ++ front.map Token.plain, ?_, inert.append harmless.inert (.inr ?_), ?_⟩
  · have joined := lexFrom_join read plain (by simp [same]) []
    simpa [lex, lexFrom, same] using joined
  · exact fun starts => harmless.absent rfl (List.mem_of_head? starts)
  · rw [List.filter_append, filter_isQuoted_plain, List.append_nil]

/-- A last line that goes on from a text is part of the same statement. -/
theorem joinClose (inLeft : Contained left leftQuotes) (glue : isGlue words = true)
    (inRight : Contained right rightQuotes) (ends : isEnding ending = true) :
    OneStatement (left ++ words ++ (right ++ ending)) (leftQuotes ++ rightQuotes) := by
  rw [← String.append_assoc]
  exact (inLeft.join glue inRight).close ends

theorem intercalate {texts : List String} {pieces : List (List Token)} (words : String)
    (glue : isGlue words = true) (contained : List.Forall₂ Contained texts pieces) :
    Contained (words.intercalate texts) pieces.flatten := by
  induction contained with
  | nil => exact empty
  | @cons text quotes texts pieces head rest ih =>
    cases rest with
    | nil => simpa using head
    | cons next more =>
      rw [String.intercalate_cons_cons]
      exact head.join glue ih

end Contained

theorem contained_of_inert (plain : ∀ c ∈ words.toList, Quote.of? c = none)
    (inert : Inert (words.toList.map Token.plain)) : Contained words [] := by
  refine ⟨words.toList.map Token.plain, ?_, inert, filter_isQuoted_plain _⟩
  have read := lexFrom_plain_append plain []
  simpa [lex, lexFrom] using read

theorem contained_words (glue : isGlue words = true) : Contained words [] :=
  have harmless := harmless_of_isGlue glue
  contained_of_inert harmless.plain harmless.inert

theorem contained_enquote (quote : Quote) (content : String) :
    Contained (.ofList (enquote quote.char content.toList)) [.quoted quote content] := by
  refine ⟨[.quoted quote content], ?_, ⟨by simp, by simp⟩, rfl⟩
  rw [lex, String.toList_ofList, lexFrom_enquote, String.ofList_toList]

theorem contained_identifier (name : String) : Contained (identifier name) [.name name] :=
  contained_enquote .double name

private theorem contained_literal (text : String) : Contained (literal text) [.text text] :=
  contained_enquote .single text

/-! ## Defaults -/

private theorem harmless_of_isDecimalDigit (digit : Text.isDecimalDigit c = true) :
    isHarmless c = true := by
  by_contra harmful
  have known : c = '"' ∨ c = '\'' ∨ c = ';' ∨ c = '-' := by
    simp only [isHarmless, Quote.of?] at harmful
    grind
  rcases known with rfl | rfl | rfl | rfl <;> exact absurd digit (by decide)

theorem digit_or_point_of_digits (digits : (match cs.dropWhile Text.isDecimalDigit with
    | [] => true
    | '.' :: fraction => !fraction.isEmpty && fraction.all Text.isDecimalDigit
    | _ => false) = true) : ∀ c ∈ cs, Text.isDecimalDigit c = true ∨ c = '.' := by
  have whole : ∀ c ∈ cs.takeWhile Text.isDecimalDigit, Text.isDecimalDigit c = true ∨
      c = '.' := fun c member =>
    .inl (List.all_eq_true.mp List.all_takeWhile c member)
  rw [← List.takeWhile_append_dropWhile (p := Text.isDecimalDigit) (l := cs)]
  refine List.forall_mem_append.mpr ⟨whole, ?_⟩
  split at digits
  · rename_i nothing
    rw [nothing]
    exact List.forall_mem_nil _
  · rename_i fraction point
    rw [Bool.and_eq_true, List.all_eq_true] at digits
    rw [point]
    exact List.forall_mem_cons.mpr ⟨.inr rfl, fun c member => .inl (digits.2 c member)⟩
  · cases digits

private theorem harmless_of_digits (digits : (match cs.dropWhile Text.isDecimalDigit with
    | [] => true
    | '.' :: fraction => !fraction.isEmpty && fraction.all Text.isDecimalDigit
    | _ => false) = true) : Harmless cs := by
  intro c member
  rcases digit_or_point_of_digits digits c member with digit | rfl
  · exact harmless_of_isDecimalDigit digit
  · rfl

/-- The sign of a number is a dash, and no second one follows it. -/
theorem inert_of_isNumberText (number : isNumberText cs = true) :
    (∀ c ∈ cs, Quote.of? c = none) ∧ Inert (cs.map Token.plain) := by
  by_cases signed : ∃ unsigned, cs = '-' :: unsigned
  · obtain ⟨unsigned, rfl⟩ := signed
    simp only [isNumberText, Bool.and_eq_true] at number
    have harmless : Harmless unsigned := harmless_of_digits number.2
    have sign : Inert [.plain '-'] := ⟨by simp, by simp⟩
    exact ⟨List.forall_mem_cons.mpr ⟨rfl, harmless.plain⟩,
      sign.append harmless.inert (.inr fun starts =>
        harmless.absent rfl (List.mem_of_head? starts))⟩
  · have unsigned : ∀ rest, cs = '-' :: rest → False := fun rest same => signed ⟨rest, same⟩
    simp only [isNumberText, Bool.and_eq_true] at number
    have harmless : Harmless cs := harmless_of_digits number.2
    exact ⟨harmless.plain, harmless.inert⟩

private theorem contained_number (number : isNumberText words.toList = true) : Contained words [] :=
  have known := inert_of_isNumberText number
  contained_of_inert known.1 known.2

/-- The text of a default, where it is one. -/
def DefaultValue.texts : DefaultValue → List Token
  | .string text => [.text text]
  | _ => []

/-- What a default is read as cannot break out, whatever was given for it. -/
theorem contained_classify (raw : String) :
    Contained (DefaultValue.classify raw).sql (DefaultValue.classify raw).texts := by
  unfold DefaultValue.classify
  dsimp only
  split
  · rename_i e _
    exact contained_words (by cases e <;> decide)
  split
  · exact contained_words (by decide)
  split
  · exact contained_words (by decide)
  split
  · rename_i number
    exact contained_number number
  split <;> exact contained_literal _

end Schemata.Sql
