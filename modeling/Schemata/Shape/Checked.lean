import Schemata.Json.Basic

/-! Results of shape checking. A check either gives a value or a list of faults, each with the way
to its place; independent checks put their faults together in order. -/

namespace Schemata

/-- One step on the way from a value to one of its parts. -/
inductive Step where
  | key (name : String)
  | index (position : Int)
  deriving DecidableEq, Repr

/-- What can be wrong with one value. -/
inductive ShapeFault where
  | missing
  | string
  | list
  | dictionary
  | model (name : String)
  | choice (names : List String)
  | boolean
  | unclearBoolean
  | unclearInteger
  | hugeInteger
  | unclearNumber
  | rejected (reason : String)
  | unnamed
  deriving DecidableEq, Repr

/-- Texts in quotes, with `or` before the last. -/
def alternatives : List String → String
  | [] => ""
  | [name] => s!"'{name}'"
  | [name, last] => s!"'{name}' or '{last}'"
  | name :: rest => s!"'{name}', {alternatives rest}"

def ShapeFault.message : ShapeFault → String
  | .missing => "Field required"
  | .string => "Input should be a valid string"
  | .list => "Input should be a valid list"
  | .dictionary => "Input should be a valid dictionary"
  | .model name => s!"Input should be a valid dictionary or instance of {name}"
  | .choice names => s!"Input should be {alternatives names}"
  | .boolean => "Input should be a valid boolean"
  | .unclearBoolean => "Input should be a valid boolean, unable to interpret input"
  | .unclearInteger => "Input should be a valid integer, unable to parse string as an integer"
  | .hugeInteger => "Unable to parse input string as an integer, exceeded maximum size"
  | .unclearNumber => "Input should be a valid number, unable to parse string as a number"
  | .rejected reason => s!"Value error, {reason}"
  | .unnamed => "Keys should be strings"

/-- A fault and its place. -/
structure ShapeError where
  place : List Step
  fault : ShapeFault
  deriving DecidableEq, Repr

/-- The way to a place as one text, `schema` for the whole value. -/
def placeText : List Step → String
  | [] => "schema"
  | first :: rest =>
    let head := match first with
      | .key name => name
      | .index n => s!"[{n}]"
    let tail := rest.map fun
      | .key name => s!".{name}"
      | .index n => s!"[{n}]"
    "".intercalate (head :: tail)

/-- A value of the right shape, or everything that is wrong. -/
inductive Checked (α : Type) where
  | valid (value : α)
  | invalid (errors : List ShapeError)
  deriving DecidableEq, Repr

namespace Checked

variable {α β : Type}

def map (f : α → β) : Checked α → Checked β
  | valid a => valid (f a)
  | invalid errors => invalid errors

/-- Applies a checked function, keeping the faults of both sides in order. -/
def apply : Checked (α → β) → Checked α → Checked β
  | valid f, valid a => valid (f a)
  | valid _, invalid errors => invalid errors
  | invalid errors, valid _ => invalid errors
  | invalid first, invalid second => invalid (first ++ second)

instance : Functor Checked := ⟨map, fun a => map (Function.const _ a)⟩
instance : Seq Checked := ⟨fun f a => apply f (a ())⟩

@[simp] theorem map_valid (f : α → β) (a : α) : f <$> valid a = valid (f a) := rfl

@[simp] theorem map_invalid (f : α → β) (errors : List ShapeError) :
    f <$> (invalid errors : Checked α) = invalid errors := rfl

@[simp] theorem valid_seq_valid (f : α → β) (a : α) :
    (valid f : Checked (α → β)) <*> valid a = valid (f a) := rfl

def fail (fault : ShapeFault) : Checked α := invalid [⟨[], fault⟩]

/-- Puts a step in front of every fault's place. -/
def under (step : Step) : Checked α → Checked α
  | valid a => valid a
  | invalid errors => invalid (errors.map fun e => { e with place := step :: e.place })

@[simp] theorem under_valid (step : Step) (a : α) : (valid a).under step = valid a := rfl

def toOption : Checked α → Option α
  | valid a => some a
  | invalid _ => none

end Checked

end Schemata
