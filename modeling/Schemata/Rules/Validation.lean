import Schemata.Json.Display
import Schemata.Rules.Audit
import Schemata.Rules.Defaults
import Schemata.Rules.Integrity
import Schemata.Rules.Naming
import Schemata.Schema.Decode

/-! All rules together. A schema passes when no rule reports anything. -/

namespace Schemata

/-- Everything that the rules report of a schema, group by group. -/
def Schema.violations (schema : Schema) (limits : Limits) : List Violation :=
  structureViolations schema limits
    ++ namingViolations schema limits
    ++ reservedNameViolations schema
    ++ auditViolations schema
    ++ integrityViolations schema
    ++ cycleViolations schema
    ++ defaultViolations schema

/-- A schema passes when it has no violations. -/
def Schema.passes (schema : Schema) (limits : Limits) : Bool :=
  (schema.violations limits).isEmpty

/-- A candidate schema: raw data, or a schema whose shape is settled. -/
inductive Candidate where
  | raw (value : Json)
  | schema (schema : Schema)
  deriving DecidableEq

/-- The outcome of checking a candidate: its schema, when the shape is right, and all violations. -/
structure Validation where
  schema? : Option Schema
  violations : List Violation
  deriving DecidableEq

/-- Gives raw data the shape of a schema. -/
def checkShape (value : Json) : Except (List Violation) Schema :=
  match value.members? with
  | some members =>
    match Schema.ofMembers members with
    | .valid schema => .ok schema
    | .invalid errors => .error (errors.map .misshapen)
  | none => .error [.notObject value.kindName]

def validate (candidate : Candidate) (limits : Limits) : Validation :=
  let settled := match candidate with
    | .raw value => checkShape value
    | .schema schema => .ok schema
  match settled with
  | .ok schema => ⟨some schema, schema.violations limits⟩
  | .error violations => ⟨none, violations⟩

namespace Validation

def passed (v : Validation) : Bool := v.violations.isEmpty

/-- The rules that were broken, each once, in the order of their first violation. -/
def rulesFailed (v : Validation) : List Rule := (v.violations.map (·.rule)).eraseDups

/-- The schema, if it passed. -/
def accepted? (v : Validation) : Option Schema := if v.passed then v.schema? else none

end Validation

end Schemata
