import Schemata.Settings.Environment
import Schemata.Text.Path

/-! How much is logged, and where to. Settings that cannot be used do not stop logging: then a few
variables are read directly. -/

namespace Schemata.Logging

/-- What the name of a level stands for: the weight that an event needs, or the usual layout of a
line, which has a name of the same kind. -/
inductive Level where
  | weight (least : Nat)
  | layout
  deriving DecidableEq, Repr

/-- The usual layout of a line. -/
def usualLayout : String := "%(levelname)s:%(name)s:%(message)s"

def Level.toJson : Level → Json
  | weight least => .int least
  | layout => .str usualLayout

structure Options where
  level : Level
  toFile : Bool
  directory : String
  fieldLength : Int
  deriving DecidableEq, Repr

/-- The level of a name in any case; an unknown name counts as `INFO`. -/
def levelOf (name : String) : Level :=
  match Text.upper name with
  | "CRITICAL" | "FATAL" => .weight 50
  | "ERROR" => .weight 40
  | "WARNING" | "WARN" => .weight 30
  | "DEBUG" => .weight 10
  | "NOTSET" => .weight 0
  | "BASIC_FORMAT" => .layout
  | _ => .weight 20

def Options.load (env : Environment) : Options :=
  match env.settings with
  | .valid s => ⟨levelOf s.logLevel, s.logToFile, Text.normalPath s.logDirectory, s.logFieldLength⟩
  | .invalid _ =>
    { level := levelOf ((env.exact "LOG_LEVEL").getD "INFO")
      toFile := ["1", "true", "yes"].contains
        (Text.lower ((env.exact "SF_LOG_TO_FILE").getD ""))
      directory := Text.normalPath ((env.exact "SF_LOG_FILE_DIR").getD "logs")
      fieldLength := 2000 }

end Schemata.Logging
