import TableMigration.Text.Lowercase
import TableMigration.Text.Split

/-! # Log levels -/

namespace TableMigration

inductive LogLevel
  | error
  | warn
  | info
  | debug
  | trace
  deriving DecidableEq, Repr

namespace LogLevel

def all : List LogLevel := [error, warn, info, debug, trace]

def name : LogLevel → String
  | error => "error"
  | warn => "warn"
  | info => "info"
  | debug => "debug"
  | trace => "trace"

def label : LogLevel → String
  | error => "ERROR"
  | warn => "WARN"
  | info => "INFO"
  | debug => "DEBUG"
  | trace => "TRACE"

def ofName? (s : String) : Option LogLevel :=
  all.find? (·.name == s)

def parse? (s : String) : Option LogLevel :=
  let s := Text.lowercase (Text.trim s)
  if s = "warning" then some warn else ofName? s

end LogLevel

end TableMigration
