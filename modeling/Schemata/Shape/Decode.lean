import Schemata.Json.Display
import Schemata.Shape.Checked

/-! Reading typed values out of data values. A reader of a record names its members one after the
other; unknown members are passed over. -/

namespace Schemata.Decode

variable {α : Type}

def string : Json → Checked String
  | .str s => .valid s
  | _ => .fail .string

/-- The words that read as `true` and `false`, in small letters. -/
def trueWords : List String := ["1", "on", "t", "true", "y", "yes"]
def falseWords : List String := ["0", "off", "f", "false", "n", "no"]

/-- A truth value written as a word; only the case of ASCII letters does not count. -/
def booleanWord (s : String) : Checked Bool :=
  let small := String.ofList (s.toList.map Char.toLower)
  if trueWords.contains small then .valid true
  else if falseWords.contains small then .valid false
  else .fail .unclearBoolean

/-- One more than the greatest integer of 64 bits with a sign. -/
def wordBound : Int := 9223372036854775808

/-- A whole number as a truth value: 0 and 1 are. -/
def booleanOfInt (n : Int) : Checked Bool :=
  if n = 0 then .valid false
  else if n = 1 then .valid true
  else .fail .unclearBoolean

/-- A truth value, a number that is 0 or 1, or a word. Whole numbers are looked at as far as 64 bits
hold them; of doubles, neither end of that range counts as held. -/
def boolean : Json → Checked Bool
  | .bool b => .valid b
  | .int n => if -wordBound ≤ n ∧ n < wordBound then booleanOfInt n else .fail .boolean
  | .double x =>
    match x.toInt? with
    | some n => if -wordBound < n ∧ n < wordBound then booleanOfInt n else .fail .boolean
    | none => .fail .boolean
  | .str s => booleanWord s
  | _ => .fail .boolean

/-- One of a fixed set of words, spelled exactly. -/
def choice (all : List α) (spell : α → String) (value : Json) : Checked α :=
  let found? := match value with
    | .str s => all.find? fun a => spell a == s
    | _ => none
  match found? with
  | some a => .valid a
  | none => .fail (.choice (all.map spell))

/-- The step to the member of a name. Names that are no texts count as positions when 64 bits hold
them, and otherwise appear as messages show them. -/
def stepTo : Json → Step
  | .str name => .key name
  | .bool b => .index (if b then 1 else 0)
  | .int n => if -wordBound ≤ n ∧ n < wordBound then .index n else .key (Json.int n).shown
  | other => .key other.shown

def isText : Json → Bool
  | .str _ => true
  | _ => false

/-- Entries whose names are all texts, or a fault for every other name. -/
def named (fault : Json → ShapeError) (entries : List (Json × Json)) : Checked Members :=
  match entries.filter fun entry => !isText entry.1 with
  | [] => .valid (Json.named entries)
  | strays => .invalid (strays.map fun entry => fault entry.1)

/-- A name that has to be a text. -/
def nameFault (name : Json) : ShapeError := ⟨[stepTo name, .key "[key]"], .string⟩

/-- A value that may be `null`. -/
def nullable (decode : Json → Checked α) : Json → Checked (Option α)
  | .null => .valid none
  | value => some <$> decode value

/-- The items from a position on, each under its position. -/
def itemsFrom (decode : Json → Checked α) : Nat → List Json → Checked (List α)
  | _, [] => .valid []
  | n, item :: rest =>
    List.cons <$> (decode item).under (.index n) <*> itemsFrom decode (n + 1) rest

def list (decode : Json → Checked α) : Json → Checked (List α)
  | .arr items => itemsFrom decode 0 items
  | _ => .fail .list

/-- The values of all members, each under its name. -/
def entries (decode : Json → Checked α) : Members → Checked (List (String × α))
  | [] => .valid []
  | (name, value) :: rest =>
    (fun a rest => (name, a) :: rest) <$> (decode value).under (.key name) <*>
      entries decode rest

/-- The values of all entries, each behind the check of its name. -/
def mixedEntries (decode : Json → Checked α) : List (Json × Json) → Checked (List (String × α))
  | [] => .valid []
  | (name, value) :: rest =>
    (fun m a rest => m.map (fun member => (member.1, a)) ++ rest) <$>
      named nameFault [(name, value)]
      <*> (decode value).under (stepTo name) <*> mixedEntries decode rest

def dictionary (decode : Json → Checked α) : Json → Checked (List (String × α))
  | .obj members => entries decode members
  | .mixed members => mixedEntries decode members
  | _ => .fail .dictionary

/-- Any object, with its members as they are. -/
def object : Json → Checked Members
  | .obj members => .valid members
  | .mixed members => named nameFault members
  | _ => .fail .dictionary

/-- A record of the named kind. Members whose names are no texts are passed over too. -/
def record (name : String) (decode : Members → Checked α) (value : Json) : Checked α :=
  match value.members? with
  | some members => decode members
  | none => .fail (.model name)

/-- The first of several spellings that an object has, with its value. -/
def spelled? (members : Members) (spellings : List String) : Option (String × Json) :=
  spellings.findSome? fun name => (members.lookup name).map fun value => (name, value)

/-- A member that may be left out. The first spelling that is present counts. -/
def optional (members : Members) (spellings : List String) (absent : α)
    (decode : Json → Checked α) : Checked α :=
  match spelled? members spellings with
  | some (name, value) => (decode value).under (.key name)
  | none => .valid absent

/-- A member that must be there. -/
def required (members : Members) (name : String) (decode : Json → Checked α) : Checked α :=
  match members.lookup name with
  | some value => (decode value).under (.key name)
  | none => (Checked.fail .missing).under (.key name)

end Schemata.Decode
