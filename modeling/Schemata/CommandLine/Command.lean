import Schemata.CommandLine.Arguments
import Schemata.Ddl.Compilation
import Schemata.Json.Printer
import Schemata.Json.Reader
import Schemata.Resource.Publication
import Schemata.Schema.Diff
import Schemata.Text.Path
import Schemata.Yaml.Reader

/-! The commands on schema files: check, compile, compare, and show the resources. A command is
worked out from the files it reads; what it writes is part of its result. -/

namespace Schemata.CommandLine

inductive MigrationAction where
  | upgrade | downgrade | stamp
  deriving DecidableEq, Repr

namespace MigrationAction

def all : List MigrationAction := [.upgrade, .downgrade, .stamp]

def word : MigrationAction → String
  | upgrade => "upgrade"
  | downgrade => "downgrade"
  | stamp => "stamp"

end MigrationAction

inductive Command where
  | validate (file : String)
  | compile (file : String) (output? principal? role? : Option String)
  | diff (old new : String)
  | resources (file : String)
  | migrate (action : MigrationAction) (address? revision? : Option String)
  deriving DecidableEq, Repr

namespace Command

def compileSpec : Spec :=
  ⟨1, none, [⟨"output", some 'o'⟩, ⟨"principal", none⟩, ⟨"role", none⟩]⟩

def migrateSpec : Spec :=
  ⟨1, some (MigrationAction.all.map MigrationAction.word),
    [⟨"revision", none⟩, ⟨"database-url", none⟩]⟩

private def ofOperands (operands : Nat) (given : List String)
    (build : List String → Option Command) : Except Refused Command := do
  let arguments ← Spec.arguments ⟨operands, none, []⟩ given
  match build arguments.operands with
  | some command => return command
  | none => throw .usage

private def oneFile (build : String → Command) (given : List String) : Except Refused Command :=
  ofOperands 1 given fun
    | [file] => some (build file)
    | _ => none

private def twoFiles (build : String → String → Command) (given : List String) :
    Except Refused Command :=
  ofOperands 2 given fun
    | [old, new] => some (build old new)
    | _ => none

private def compileOf (given : List String) : Except Refused Command := do
  let arguments ← compileSpec.arguments given
  match arguments.operands with
  | [file] =>
    return compile file (arguments.option? "output") (arguments.option? "principal")
      (arguments.option? "role")
  | _ => throw .usage

private def migrateOf (given : List String) : Except Refused Command := do
  let arguments ← migrateSpec.arguments given
  match arguments.operands with
  | [name] => match MigrationAction.all.find? fun action => action.word == name with
    | some action =>
      return migrate action (arguments.option? "database-url") (arguments.option? "revision")
    | none => throw .usage
  | _ => throw .usage

private def ofName (name : String) (given : List String) : Except Refused Command :=
  match name with
  | "validate" => oneFile validate given
  | "compile" => compileOf given
  | "diff" => twoFiles diff given
  | "resources" => oneFile resources given
  | "migrate" => migrateOf given
  | _ => .error .usage

/-- The command that arguments name. Options in front of its name are refused once the command
itself is read, unless help is asked for before that. -/
def ofArguments : List String → Except Refused Command
  | [] => .error .usage
  | name :: rest =>
    let spec : Spec := ⟨1, none, []⟩
    if name = "--" then .error .usage
    else match spec.read name with
      | .error refused => .error refused
      | .ok (.help attached) => .error (spec.helpOutcome [] attached)
      | .ok (.operand text) => ofName text rest
      | .ok _ => match ofArguments rest with
        | .error refused => .error refused
        | .ok _ => .error .usage

/-- The files that a command reads. -/
def inputs : Command → List String
  | validate file | compile file .. | resources file => [file]
  | diff old new => [old, new]
  | migrate .. => []

end Command

/-- Why a file cannot be read. -/
inductive FileFault where
  | missing
  | directory
  | notDirectory
  | denied
  | longName
  | nullCharacter
  deriving DecidableEq, Repr

def FileFault.message (fault : FileFault) (path : String) : String :=
  let shown := Json.shownText (Text.normalPath path)
  match fault with
  | .missing => "[Errno 2] No such file or directory: " ++ shown
  | .directory => "[Errno 21] Is a directory: " ++ shown
  | .notDirectory => "[Errno 20] Not a directory: " ++ shown
  | .denied => "[Errno 13] Permission denied: " ++ shown
  | .longName => "[Errno 36] File name too long: " ++ shown
  | .nullCharacter => "embedded null byte"

/-- The files as far as they can be read. -/
abbrev Files := String → Except FileFault String

/-- Line breaks of every kind as line feeds. -/
def plainLines : List Char → List Char
  | [] => []
  | '\r' :: '\n' :: rest => '\n' :: plainLines rest
  | '\r' :: rest => '\n' :: plainLines rest
  | c :: rest => c :: plainLines rest

/-- The object in a schema file, or what is wrong with it. The ending of the name decides how the
text is read. -/
def loadSchema (files : Files) (path : String) : Except String Json := do
  let content ← (files path).mapError fun fault => fault.message path
  let text := String.ofList (plainLines content.toList)
  let isYaml := [".yaml", ".yml"].contains (Text.pathEnding path)
  let value ← if isYaml then Yaml.ofText text else Json.ofText text
  match value.members? with
  | some _ => return value
  | none => throw s!"{path}: expected a schema object, got {value.kindName}"

/-- What a command leaves behind: its exit code, what it prints, the file it writes, and the
migration it asks for. -/
structure Output where
  exit : Nat
  stdout : String
  written? : Option (String × String)
  migration? : Option (MigrationAction × Option String × Option String)
  deriving DecidableEq, Repr

namespace Output

def text (exit : Nat) (stdout : String) : Output := ⟨exit, stdout, none, none⟩

def json (exit : Nat) (value : Json) : Output := text exit (value.indented ++ "\n")

/-- The output for wrong arguments; help is no failure. -/
def refused : Refused → Output
  | .help => text 0 ""
  | .usage => text 2 ""

def report (exit : Nat) (passed : Bool) (reports : List Report) : Output :=
  json exit (.obj [("passed", .bool passed), ("errors", .arr (reports.map Report.toJson))])

def unreadable (path message : String) : Output := report 2 false [⟨"file", path, message⟩]

def checked (exit : Nat) (v : Validation) : Output :=
  report exit v.passed (v.violations.map Violation.report)

end Output

/-- Names for statements as options and settings give them; an empty option counts as none. -/
def compileOptions (settings : Settings) (principal? role? : Option String) : Ddl.Options :=
  let usual := Ddl.Options.ofSettings settings
  { usual with
    principal := (principal?.filter (· != "")).getD usual.principal
    role := (role?.filter (· != "")).getD usual.role }

/-- Goes on with the check of a file, when the file can be read. -/
def withFile (settings : Checked Settings) (files : Files) (path : String)
    (next : Settings → Validation → Checked Output) : Checked Output :=
  match loadSchema files path with
  | .error message => .valid (.unreadable path message)
  | .ok schema => match settings with
    | .valid s => next s (validate (.raw schema) s.limits)
    | .invalid errors => .invalid errors

/-- Goes on with a schema that passes the rules. -/
def withAccepted (settings : Checked Settings) (files : Files) (path : String)
    (next : Settings → Schema → Output) : Checked Output :=
  withFile settings files path fun s v =>
    match v.accepted? with
    | some schema => .valid (next s schema)
    | none => .valid (.checked 1 v)

/-- Prints a compiled schema, or writes it to a file and prints how much it holds. -/
def compileOutput (limits : Limits) (options : Ddl.Options) (schema : Schema)
    (output? : Option String) : Output :=
  match Ddl.compile limits options schema, output?.filter (· != "") with
  | .error _, _ => .text 1 ""
  | .ok c, none => .text 0 c.text
  | .ok c, some path =>
    let counts := c.statementCounts.map fun (name, n) => (name, Json.int n)
    { Output.json 0 (.obj [("output", .str path), ("fingerprint", .str c.fingerprint),
        ("statements", .obj counts)]) with written? := some (path, c.text) }

/-- Compares two files; both only need the shape of a schema. -/
def diffOutput (settings : Checked Settings) (files : Files) (old new : String) : Checked Output :=
  withFile settings files old fun _ first =>
    match first.schema? with
    | none => .valid (.checked 1 first)
    | some before => withFile settings files new fun _ second =>
      match second.schema? with
      | none => .valid (.checked 1 second)
      | some after => .valid (.json 0 (.obj (SchemaDiff.between before after).members))

/-- Whether options of a compile command need the settings before its file is read. -/
def namesOptions (principal? role? : Option String) : Bool :=
  [principal?, role?].any fun option? => option?.any (· != "")

/-- Works a command out. Settings that cannot be used matter only once they are needed. -/
def Command.perform (settings : Checked Settings) (files : Files) : Command → Checked Output
  | .validate file => withFile settings files file fun _ v =>
    .valid (.checked (if v.passed then 0 else 1) v)
  | .compile file output? principal? role? =>
    let compiled := withAccepted settings files file fun s schema =>
      compileOutput s.limits (compileOptions s principal? role?) schema output?
    match settings with
    | .invalid errors => if namesOptions principal? role? then .invalid errors else compiled
    | .valid _ => compiled
  | .diff old new => diffOutput settings files old new
  | .resources file => withAccepted settings files file fun _ schema =>
    .json 0 (Registry.registerSchema .usual ⟨0⟩ [] schema false).1.toJson
  | .migrate action address? revision? =>
    .valid { Output.text 0 "" with
      migration? := some (action, address?, revision?.filter (· != "")) }

/-- Runs the command that arguments name. -/
def run (settings : Checked Settings) (files : Files) (given : List String) : Checked Output :=
  match Command.ofArguments given with
  | .ok command => command.perform settings files
  | .error refused => .valid (.refused refused)

end Schemata.CommandLine
