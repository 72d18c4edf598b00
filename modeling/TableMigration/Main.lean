import TableMigration.Program
import TableMigration.Shell.Run

/-!
# The command line

Rehearses a run over the working directory that is listed on standard input.
-/

namespace TableMigration

def usage : String :=
  "Usage: datacarrier [OPTIONS] --input-dir <DIR>\n"

def ArgumentError.message : ArgumentError → String
  | .missingRequired => "the input directory must be given"
  | .invalidValue => "the value of an option is not valid"
  | .unknown => "an argument is not known"
  | .conflict => "an option is given twice"
  | .tooManyValues => "a flag takes no value"
  | .help => usage
  | .version => "datacarrier"

partial def readToEnd (input : IO.FS.Stream) (text : String) : IO String := do
  let line ← input.getLine
  if line = "" then return text else readToEnd input (text ++ line)

end TableMigration

open TableMigration in
def main (args : List String) : IO UInt32 := do
  match Arguments.parse args with
  | .error e =>
    if e = .help || e = .version then
      IO.println e.message
      return 0
    IO.eprintln ("error: " ++ e.message)
    return 2
  | .ok args =>
    let listing ← readToEnd (← IO.getStdin) ""
    let result := runProgram Shell.execute args (Disk.ofListing listing)
    IO.print result.printed
    match result.error with
    | none => return 0
    | some e =>
      IO.eprintln ("datacarrier error: " ++ e.message)
      return 1
