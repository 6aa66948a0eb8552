import Schemata.Keyed
import Schemata.Text.DecimalDigit
import Schemata.Text.Search

/-! Command line arguments: operands in order, and options with a value. A long option may be
shortened as long as only one option begins that way. All arguments are read before any of them is
taken up. -/

namespace Schemata.CommandLine

/-- An option that takes a value, by its long name and perhaps a letter. -/
structure OptionSpec where
  name : String
  letter? : Option Char
  deriving DecidableEq, Repr

/-- What a command takes: a number of operands, perhaps out of a few words, and options. -/
structure Spec where
  operands : Nat
  words? : Option (List String)
  options : List OptionSpec
  deriving DecidableEq, Repr

/-- What was given to a command. Of an option that is given twice the last value counts. -/
structure Arguments where
  operands : List String
  options : Keyed String
  deriving DecidableEq, Repr

def Arguments.option? (arguments : Arguments) (name : String) : Option String :=
  arguments.options.lookup name

/-- Why arguments are not taken up: help is asked for, or they are wrong. -/
inductive Refused where
  | help
  | usage
  deriving DecidableEq, Repr

/-- What an option brings along: nothing, a value behind an equals sign, or what follows its letter,
behind an equals sign or right away. -/
inductive Attached where
  | nothing
  | value (text : String)
  | tail (separated : Bool) (cs : List Char)
  deriving DecidableEq, Repr

/-- How one argument reads: as an operand, as the mark behind which all are operands, as a call for
help, as an option, or as an option that is not known. -/
inductive Reading where
  | operand (text : String)
  | mark
  | help (attached : Attached)
  | option (name : String) (attached : Attached)
  | unknown
  deriving DecidableEq, Repr

/-- Operands and the mark; all other readings are options. -/
def Reading.isOperand : Reading → Bool
  | operand _ | mark => true
  | _ => false

/-- A minus sign with digits, and perhaps a point among them or a line feed behind them. -/
def isNegativeNumber : List Char → Bool
  | '-' :: rest =>
    let number := if rest.getLast? == some '\n' then rest.dropLast else rest
    match Text.pieces '.' number with
    | [whole] => !whole.isEmpty && whole.all Text.isDecimalDigit
    | [whole, fraction] => whole.all Text.isDecimalDigit && !fraction.isEmpty
      && fraction.all Text.isDecimalDigit
    | _ => false
  | _ => false

/-- The names of all options, help being one of them. -/
def Spec.longNames (spec : Spec) : List String := "help" :: spec.options.map (·.name)

private def named (name : String) (attached : Attached) : Reading :=
  if name = "help" then .help attached else .option name attached

/-- A long option, perhaps shortened, with its value behind an equals sign. A beginning that several
options share is refused. -/
def Spec.readLong (spec : Spec) (body : List Char) : Except Refused (Option Reading) :=
  let stem := body.takeWhile (· != '=')
  let attached := match body.dropWhile (· != '=') with
    | _ :: value => Attached.value (.ofList value)
    | [] => .nothing
  match spec.longNames.find? fun name => name.toList == stem with
  | some name => .ok (some (named name attached))
  | none =>
    match spec.longNames.filter fun name => stem.isPrefixOf name.toList with
    | [] => .ok none
    | [name] => .ok (some (named name attached))
    | _ => .error .usage

/-- An option by its letter. -/
def Spec.letter? (spec : Spec) (letter : Char) : Option (Attached → Reading) :=
  if letter = 'h' then some .help
  else (spec.options.find? fun o => o.letter? == some letter).map fun o => .option o.name

/-- What follows a letter. -/
def Attached.ofTail : List Char → Attached
  | [] => .nothing
  | '=' :: cs => .tail true cs
  | cs => .tail false cs

/-- Reads one argument. What looks like an option and is none counts as an operand if it is a
negative number or has a blank in it. -/
def Spec.read (spec : Spec) (argument : String) : Except Refused Reading :=
  match argument.toList with
  | '-' :: c :: rest => do
    let option? ← if c = '-' then spec.readLong rest
      else pure ((spec.letter? c).map fun option => option (.ofTail rest))
    match option? with
    | some reading => return reading
    | none =>
      if isNegativeNumber ('-' :: c :: rest) || (c :: rest).contains ' ' then
        return .operand argument
      else return .unknown
  | _ => .ok (.operand argument)

/-- Reads all arguments; behind the mark they are operands. -/
def Spec.readAll (spec : Spec) : List String → Except Refused (List Reading)
  | [] => .ok []
  | argument :: rest =>
    if argument = "--" then .ok (.mark :: rest.map .operand)
    else do return (← spec.read argument) :: (← spec.readAll rest)

/-- A call for help with what it brings along. Behind its letter other letters may stand, of which a
last one that takes a value has to get it. -/
def Spec.helpOutcome (spec : Spec) (following : List Reading) : Attached → Refused
  | .nothing => .help
  | .value _ => .usage
  | .tail separated cs => letters separated cs
where
  letters (separated : Bool) : List Char → Refused
    | [] => .usage
    | c :: rest =>
      if separated || c = '-' then .usage
      else match spec.letter? c with
        | none => .help
        | some option => match option .nothing with
          | .help _ => match rest with
            | [] => .help
            | '=' :: more => letters true more
            | d :: more => letters false (d :: more)
          | _ => match rest, following with
            | _ :: _, _ | [], .operand _ :: _ => .help
            | [], _ => .usage

/-- Takes the operands of a run that are still wanted; the mark goes with an operand beside it. What
is left of the run follows. -/
def takeRun : Nat → List Reading → List String × List Reading
  | 0, run => ([], run)
  | wanted + 1, .operand text :: .mark :: rest =>
    let (texts, left) := takeRun wanted rest
    (text :: texts, left)
  | wanted + 1, .operand text :: rest =>
    let (texts, left) := takeRun wanted rest
    (text :: texts, left)
  | wanted + 1, .mark :: .operand text :: rest =>
    let (texts, left) := takeRun wanted rest
    (text :: texts, left)
  | _ + 1, run => ([], run)

/-- Takes readings up from left to right. What is left over is refused at the end, so that a call
for help still counts. Every round takes at least one reading. -/
def Spec.take (spec : Spec) : Nat → Arguments → Bool → List Reading → Except Refused Arguments
  | 0, _, _, _ => .error .usage
  | _, taken, excess, [] =>
    if excess || taken.operands.length ≠ spec.operands then .error .usage else .ok taken
  | fuel + 1, taken, excess, reading :: rest =>
    match reading with
    | .help attached => .error (spec.helpOutcome rest attached)
    | .unknown => spec.take fuel taken true rest
    | .option name attached =>
      let put (value : String) : Arguments :=
        { taken with options := taken.options.put name value }
      match attached, rest with
      | .value text, _ => spec.take fuel (put text) excess rest
      | .tail _ cs, _ => spec.take fuel (put (.ofList cs)) excess rest
      | .nothing, .operand text :: rest => spec.take fuel (put text) excess rest
      | .nothing, _ => .error .usage
    | .operand _ | .mark =>
      let run := (reading :: rest).takeWhile Reading.isOperand
      let (texts, left) := takeRun (spec.operands - taken.operands.length) run
      if texts.any fun text => spec.words?.any fun words => !words.contains text then .error .usage
      else spec.take fuel { taken with operands := taken.operands ++ texts }
        (excess || !left.isEmpty) ((reading :: rest).dropWhile Reading.isOperand)

def Spec.arguments (spec : Spec) (given : List String) : Except Refused Arguments := do
  let readings ← spec.readAll given
  spec.take (readings.length + 1) ⟨[], []⟩ false readings

end Schemata.CommandLine
