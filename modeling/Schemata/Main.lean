import Schemata.CommandLine.Command
import Schemata.Settings.Environment

/-! The program: reads files and variables, works the command out, and writes what it gives. -/

open Schemata

namespace Schemata.CommandLine

/-- The variables that settings are read from. -/
def variableNames : List String :=
  ["ENVIRONMENT", "LOG_LEVEL", "LOG_TO_FILE", "LOG_FILE_DIR", "DATABASE_URL", "SF_DATABASE__URI",
    "SF_DATABASE_URI"] ++ ["APP_NAME", "LOG_TO_FILE", "LOG_FILE_DIR", "LOG_MAX_FIELD_LENGTH",
    "MAX_TABLES", "MAX_COLUMNS_PER_TABLE", "MAX_REFERENCE_DEPTH", "MAX_IDENTIFIER_LENGTH",
    "RLS_PRINCIPAL_EXPRESSION", "RLS_POLICY_ROLE", "UPDATED_AT_FUNCTION", "PROVISIONING_STRATEGY",
    "AI_TIMEOUT_SECONDS", "REFINEMENT_HISTORY_WINDOW", "SCHEMA_LOCK_DEFAULT_MINUTES",
    "SCHEMA_LOCK_MAX_MINUTES", "VERSION_LIST_LIMIT"].map ("SF_" ++ ·)

def readVariables : IO Environment := do
  let values ← variableNames.mapM fun name => do return (← IO.getEnv name).map (name, ·)
  return values.filterMap id

/-- Reads a file; only failures that a report can tell are kept. -/
def readFile (path : String) : IO (Except FileFault String) := do
  if path.contains '\x00' then return .error .nullCharacter
  try
    return .ok (← IO.FS.readFile path)
  catch
    | .noFileOrDirectory .. => return .error .missing
    | .inappropriateType .. => return .error .directory
    | .permissionDenied .. => return .error .denied
    | failure => throw failure

def readFiles (paths : List String) : IO Files := do
  let contents ← paths.mapM fun path => do return (path, ← readFile path)
  return fun path => (contents.lookup path).getD (.error .missing)

/-- Writes the output of a command and gives its exit code. Migrations need a runner of their
own. -/
def writeOutput (output : Output) : IO UInt32 := do
  match output.written? with
  | some (path, content) => IO.FS.writeFile path content
  | none => pure ()
  (← IO.getStdout).putStr output.stdout
  match output.migration? with
  | some (action, _) =>
    (← IO.getStderr).putStrLn s!"no runner for migrations: {action.word}"
    return 1
  | none => return output.exit.toUInt32

end Schemata.CommandLine

open Schemata.CommandLine in
def main (given : List String) : IO UInt32 := do
  let environment ← readVariables
  let paths := match Command.ofArguments given with
    | .ok command => command.inputs
    | .error _ => []
  match run environment.settings (← readFiles paths) given with
  | .valid output => writeOutput output
  | .invalid errors =>
    for e in errors do
      (← IO.getStderr).putStrLn (placeText e.place ++ ": " ++ e.fault.message)
    return 1
