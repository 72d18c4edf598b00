import TableMigration.Action
import TableMigration.LogLevel
import TableMigration.Path
import TableMigration.Text.Split

/-!
# Command-line arguments

Arguments are handled from left to right. An option takes the argument after it as its value, or
one attached to it, and an option that waits for its value is only judged when another option or
flag comes, or at the end.
-/

namespace TableMigration

structure Arguments where
  inputDirectory : Path
  source : Source
  mode : Mode
  mapping : Option Path
  settings : Option Path
  logLevel : Option LogLevel
  dryRun : Bool
  deriving DecidableEq, Repr

inductive ArgumentError
  | missingRequired
  | invalidValue
  | unknown
  /-- An option or flag given twice. -/
  | conflict
  /-- A value for a flag. -/
  | tooManyValues
  | help
  | version
  deriving DecidableEq, Repr

inductive ValueOption
  | inputDirectory
  | source
  | mode
  | mapping
  | settings
  | logLevel
  deriving DecidableEq, Repr

inductive Flag
  | dryRun
  | help
  | version
  deriving DecidableEq, Repr

def ValueOption.ofLong? : String → Option ValueOption
  | "input-dir" => some .inputDirectory
  | "datasource" => some .source
  | "mode" => some .mode
  | "table-mapping" => some .mapping
  | "config" => some .settings
  | "log-level" => some .logLevel
  | _ => none

def ValueOption.ofShort? : Char → Option ValueOption
  | 'i' => some .inputDirectory
  | 'd' => some .source
  | 'm' => some .mode
  | 't' => some .mapping
  | _ => none

def Flag.ofLong? : String → Option Flag
  | "dry-run" => some .dryRun
  | "help" => some .help
  | "version" => some .version
  | _ => none

def Flag.ofShort? : Char → Option Flag
  | 'h' => some .help
  | 'V' => some .version
  | _ => none

structure GivenArguments where
  inputDirectory : Option Path
  source : Option Source
  mode : Option Mode
  mapping : Option Path
  settings : Option Path
  logLevel : Option LogLevel
  dryRun : Bool
  /-- An option that was not judged yet, with its value if it has come. -/
  waiting : Option (ValueOption × Option String)
  deriving DecidableEq, Repr

namespace GivenArguments

def none : GivenArguments :=
  ⟨.none, .none, .none, .none, .none, .none, false, .none⟩

def path? (value : String) : Option Path :=
  if value = "" then .none else some ⟨value⟩

def source? : String → Option Source
  | "hive" => some .hive
  | "oss" => some .oss
  | _ => .none

def mode? : String → Option Mode
  | "single" => some .single
  | "batch" => some .batch
  | _ => .none

def once {α : Type} (had read : Option α) : Except ArgumentError (Option α) :=
  if had.isSome then .error .conflict
  else if read.isSome then .ok read
  else .error .invalidValue

def set (g : GivenArguments) (o : ValueOption) (value : String) :
    Except ArgumentError GivenArguments :=
  match o with
  | .inputDirectory => do
    let inputDirectory ← once g.inputDirectory (path? value)
    return { g with inputDirectory }
  | .source => do
    let source ← once g.source (source? value)
    return { g with source }
  | .mode => do
    let mode ← once g.mode (mode? value)
    return { g with mode }
  | .mapping => do
    let mapping ← once g.mapping (path? value)
    return { g with mapping }
  | .settings => do
    let settings ← once g.settings (path? value)
    return { g with settings }
  | .logLevel => do
    let logLevel ← once g.logLevel (LogLevel.ofName? value)
    return { g with logLevel }

def settle (g : GivenArguments) : Except ArgumentError GivenArguments :=
  match g.waiting with
  | .none => .ok g
  | some (_, .none) => .error .invalidValue
  | some (o, some value) => { g with waiting := .none }.set o value

def option (g : GivenArguments) (o : ValueOption) (attached : Option String) :
    Except ArgumentError GivenArguments := do
  let g ← g.settle
  match attached with
  | some value => g.set o value
  | .none => return { g with waiting := some (o, .none) }

def flag (g : GivenArguments) (f : Flag) : Except ArgumentError GivenArguments := do
  let g ← g.settle
  match f with
  | .help => throw .help
  | .version => throw .version
  | .dryRun => if g.dryRun then throw .conflict else return { g with dryRun := true }

def long (g : GivenArguments) (body : List Char) : Except ArgumentError GivenArguments :=
  let (name, attached) := match Text.splitOnce '=' body with
    | some (name, value) => (String.ofList name, some (String.ofList value))
    | .none => (String.ofList body, .none)
  match ValueOption.ofLong? name, Flag.ofLong? name with
  | some o, _ => g.option o attached
  | .none, some f => if attached.isSome then .error .tooManyValues else g.flag f
  | .none, .none => .error .unknown

def short (g : GivenArguments) (letter : Char) (rest : List Char) :
    Except ArgumentError GivenArguments :=
  match ValueOption.ofShort? letter, Flag.ofShort? letter with
  | some o, _ =>
    match rest with
    | [] => g.option o .none
    | '=' :: value => g.option o (some (String.ofList value))
    | value => g.option o (some (String.ofList value))
  | .none, some f => g.flag f
  | .none, .none => .error .unknown

/-- An argument that is no option: the value of the option that waits for it. -/
def value (g : GivenArguments) (arg : String) : Except ArgumentError GivenArguments :=
  match g.waiting with
  | some (o, .none) => .ok { g with waiting := some (o, some arg) }
  | _ => .error .unknown

/-- Two hyphens end the options, and there is nothing else to be given. -/
def readAll (g : GivenArguments) : List String → Except ArgumentError GivenArguments
  | [] => g.settle
  | arg :: rest =>
    match arg.toList with
    | ['-', '-'] => if rest = [] then g.settle else .error .unknown
    | '-' :: '-' :: body => do (← g.long body).readAll rest
    | '-' :: letter :: body => do (← g.short letter body).readAll rest
    | _ => do (← g.value arg).readAll rest

def complete (g : GivenArguments) : Except ArgumentError Arguments :=
  match g.inputDirectory with
  | .none => .error .missingRequired
  | some inputDirectory => .ok {
    inputDirectory
    source := g.source.getD .hive
    mode := g.mode.getD .batch
    mapping := g.mapping
    settings := g.settings
    logLevel := g.logLevel
    dryRun := g.dryRun }

end GivenArguments

def Arguments.parse (args : List String) : Except ArgumentError Arguments := do
  (← GivenArguments.none.readAll args).complete

end TableMigration
