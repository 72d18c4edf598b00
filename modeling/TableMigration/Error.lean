import TableMigration.FileSystem
import TableMigration.Mapping
import TableMigration.Report
import TableMigration.Settings

/-!
# Errors of the program

Every cause that ends a run, its category, and the one text for both.
-/

namespace TableMigration

inductive Category
  | settings
  | plan
  | dispatch
  | crash
  /-- The cause speaks for itself. -/
  | other
  deriving DecidableEq, Repr

def Category.announce : Category → String → String
  | .settings, detail => "Configuration error: " ++ detail
  | .plan, detail => "Invalid action plan: " ++ detail
  | .dispatch, detail => "Dispatch error: " ++ detail
  | .crash, detail => "Scheduler loop panicked: " ++ detail
  | .other, detail => detail

inductive Error
  | setting (e : SettingError)
  | mapping (e : MappingError)
  | inputDirectory (path : Path)
  | plan (e : PlanError)
  | fault (f : Fault)
  | file (e : FileError)
  /-- The settings cannot be read from their file. -/
  | unreadableSettings
  /-- The text of the settings is no TOML document for them. -/
  | malformedSettings
  deriving DecidableEq, Repr

def Payload.message : Payload → String
  | .text s => s
  | .unreadable => "unknown panic payload"

def Fault.category : Fault → Category
  | .unknownAction .. => .other
  | .dispatch _ => .dispatch
  | .crash _ => .crash

def Fault.detail : Fault → String
  | .unknownAction task a => "Task " ++ task ++ " has no state for action " ++ a.name
  | .dispatch e => e.message
  | .crash payload => payload.message

def Fault.message (f : Fault) : String :=
  f.category.announce f.detail

def Error.category : Error → Category
  | .setting _ | .mapping _ | .inputDirectory _ => .settings
  | .plan _ => .plan
  | .fault f => f.category
  | .file _ | .unreadableSettings | .malformedSettings => .other

def Error.detail : Error → String
  | .setting e => e.message
  | .mapping e => e.message
  | .inputDirectory p =>
    "input directory " ++ Text.quote p.raw ++ " does not exist or is not a directory"
  | .plan e => e.message
  | .fault f => f.detail
  | .file e => e.message
  | .unreadableSettings => "settings cannot be read"
  | .malformedSettings => "settings are malformed"

def Error.message (e : Error) : String :=
  e.category.announce e.detail

end TableMigration
