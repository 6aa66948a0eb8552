import Schemata.Shape.Checked

/-! What the rules report. A violation holds its cause; the rule, the location and the wording
follow from it. -/

namespace Schemata

/-- The groups of rules. -/
inductive Rule where
  | shape | structural | naming | reservedWord | auditColumns | referentialIntegrity
  | circularDependency | defaultValue
  deriving DecidableEq, Repr

def Rule.word : Rule → String
  | shape => "shape"
  | structural => "structure"
  | naming => "naming"
  | reservedWord => "reserved_word"
  | auditColumns => "audit_columns"
  | referentialIntegrity => "referential_integrity"
  | circularDependency => "circular_dependency"
  | defaultValue => "default_value"

/-- Bounds that a schema has to keep. -/
structure Limits where
  tables : Int
  columns : Int
  depth : Int
  nameLength : Int
  deriving DecidableEq, Repr

/-- The usual bounds. -/
def Limits.standard : Limits := ⟨15, 50, 3, 63⟩

/-- A thing with a name of its own. -/
inductive Subject where
  | table (name : String)
  | column (owner name : String)
  | index (owner name : String)
  deriving DecidableEq, Repr

namespace Subject

def name : Subject → String
  | .table name | .column _ name | .index _ name => name

def word : Subject → String
  | table _ => "Table"
  | column _ _ => "Column"
  | index _ _ => "Index"

def location : Subject → String
  | .table name => name
  | .column owner name => s!"{owner}.{name}"
  | .index owner name => s!"{owner}.indexes.{name}"

end Subject

/-- The two ends of a relationship. -/
inductive Side where
  | start
  | target
  deriving DecidableEq, Repr

def Side.word : Side → String
  | start => "from"
  | target => "to"

/-- Why a default does not suit its column. -/
inductive DefaultProblem where
  | nullOnRequired
  | uuidOnly
  | temporalOnly (expression : String)
  | notBoolean
  | notNumeric (type : String)
  | booleanOn (type : String)
  | tooLong (limit : Nat)
  deriving DecidableEq, Repr

def DefaultProblem.message : DefaultProblem → String
  | nullOnRequired => "NULL default on a NOT NULL column"
  | uuidOnly => "gen_random_uuid() requires a UUID column"
  | temporalOnly expression => s!"{expression} requires a date or timestamp column"
  | notBoolean => "BOOLEAN columns need a true/false default"
  | notNumeric type => s!"{type} columns need a numeric default"
  | booleanOn type => s!"Boolean default on a {type} column"
  | tooLong limit => s!"String default exceeds {limit} characters"

/-- One way in which a schema breaks a rule. -/
inductive Violation where
  | notObject (kind : String)
  | misshapen (error : ShapeError)
  | version (text : String)
  | noTables
  | tooManyTables (limit : Int) (count : Nat)
  | noColumns (table : String)
  | tooManyColumns (table : String) (limit : Int) (count : Nat)
  | deepChain (table : String) (depth : Nat) (limit : Int)
  | longName (subject : Subject) (limit : Int)
  | malformedName (subject : Subject)
  | repeatedName (subject : Subject)
  | reservedName (subject : Subject)
  | missingAudit (table column : String)
  | idNotPrimary (table : String)
  | auditNotUuid (table column type : String)
  | auditNullable (table column : String)
  | auditNotTimestamp (table column type : String)
  | strayPrimary (table column : String)
  | missingTarget (table column target : String)
  | missingTargetColumn (table column target targetColumn : String)
  | emptyIndex (table index : String)
  | missingIndexColumn (table index column : String)
  | relationshipTable (position : Nat) (side : Side) (table : String)
  | relationshipColumn (position : Nat) (side : Side) (table column : String)
  | cycle (path : List String)
  | unsuitableDefault (table column : String) (problem : DefaultProblem)
  deriving DecidableEq, Repr

namespace Violation

def rule : Violation → Rule
  | notObject .. | misshapen .. => .shape
  | version .. | noTables | tooManyTables .. | noColumns .. | tooManyColumns .. | deepChain .. =>
    .structural
  | longName .. | malformedName .. | repeatedName .. => .naming
  | reservedName .. => .reservedWord
  | missingAudit .. | idNotPrimary .. | auditNotUuid .. | auditNullable .. | auditNotTimestamp ..
  | strayPrimary .. => .auditColumns
  | missingTarget .. | missingTargetColumn .. | emptyIndex .. | missingIndexColumn ..
  | relationshipTable .. | relationshipColumn .. => .referentialIntegrity
  | cycle .. => .circularDependency
  | unsuitableDefault .. => .defaultValue

def location : Violation → String
  | notObject _ => "schema"
  | misshapen error => placeText error.place
  | version _ => "version"
  | noTables | tooManyTables _ _ => "tables"
  | noColumns table | tooManyColumns table _ _ | deepChain table _ _ => table
  | longName subject _ | malformedName subject | repeatedName subject | reservedName subject =>
    subject.location
  | idNotPrimary table => s!"{table}.id"
  | missingAudit table column | auditNotUuid table column _ | auditNullable table column
  | auditNotTimestamp table column _ | strayPrimary table column
  | missingTarget table column _ | missingTargetColumn table column _ _
  | unsuitableDefault table column _ => s!"{table}.{column}"
  | emptyIndex table index | missingIndexColumn table index _ => s!"{table}.indexes.{index}"
  | relationshipTable position _ _ | relationshipColumn position _ _ _ =>
    s!"relationships[{position}]"
  | cycle path => path.headD ""

def message : Violation → String
  | notObject kind => s!"Schema must be a JSON object, got {kind}"
  | misshapen error => error.fault.message
  | version text => s!"Version must be semver format (e.g., 1.0.0), got '{text}'"
  | noTables => "Schema must have at least one table"
  | tooManyTables limit count => s!"Schema cannot have more than {limit} tables (got {count})"
  | noColumns table => s!"Table '{table}' must have at least one column"
  | tooManyColumns table limit count =>
    s!"Table '{table}' cannot have more than {limit} columns (got {count})"
  | deepChain table depth limit =>
    s!"Table '{table}' has a reference chain of depth {depth}, maximum is {limit}"
  | longName subject limit => s!"{subject.word} name '{subject.name}' exceeds {limit} characters"
  | malformedName subject =>
    s!"{subject.word} name '{subject.name}' must be lowercase snake_case starting with a letter"
  | repeatedName (.table name) => s!"Duplicate table name '{name}'"
  | repeatedName (.column table name) => s!"Duplicate column '{name}' in table '{table}'"
  | repeatedName (.index _ name) => s!"Duplicate index name '{name}'"
  | reservedName (.column table name) =>
    s!"Column '{table}.{name}' uses a PostgreSQL reserved word"
  | reservedName subject =>
    s!"{subject.word} name '{subject.name}' is a PostgreSQL reserved word"
  | missingAudit table column => s!"{table} missing '{column}' audit column"
  | idNotPrimary table => s!"{table}.id must be the primary key"
  | auditNotUuid table column type => s!"{table}.{column} must be UUID, got {type}"
  | auditNullable table column => s!"{table}.{column} must be NOT NULL"
  | auditNotTimestamp table column type => s!"{table}.{column} must be a timestamp, got {type}"
  | strayPrimary table column =>
    s!"{table}.{column} cannot be a primary key; 'id' is the primary key"
  | missingTarget table column target =>
    s!"{table}.{column} references non-existent table '{target}'"
  | missingTargetColumn table column target targetColumn =>
    s!"{table}.{column} references non-existent column '{target}.{targetColumn}'"
  | emptyIndex _ index => s!"Index '{index}' must cover at least one column"
  | missingIndexColumn table index column =>
    s!"Index '{index}' references non-existent column '{table}.{column}'"
  | relationshipTable _ side table => s!"Relationship {side.word}_table '{table}' does not exist"
  | relationshipColumn _ side table column =>
    s!"Relationship {side.word}_column '{table}.{column}' does not exist"
  | cycle path => "Circular dependency detected: " ++ " -> ".intercalate path
  | unsuitableDefault table column problem =>
    s!"Invalid default for {table}.{column}: {problem.message}"

end Violation

/-- A violation in words. -/
structure Report where
  rule : String
  location : String
  message : String
  deriving DecidableEq, Repr

def Violation.report (v : Violation) : Report := ⟨v.rule.word, v.location, v.message⟩

def Report.toJson (r : Report) : Json :=
  .obj [("rule", .str r.rule), ("location", .str r.location), ("message", .str r.message)]

end Schemata
