import TableMigration.Dispatch
import TableMigration.Error

/-!
# Tasks from a tree of scripts

Scripts lie under the input directory by database, table and action. Every table becomes a task,
and the scripts of an action become its units: one unit for all of them in batch mode, and one for
each file stem in single mode. A mapping keeps only the tables it maps.
-/

namespace TableMigration

/-- The scripts of each unit, in the order in which they run. -/
structure ScriptIndex where
  entries : List (UnitKey × List Path)
  deriving DecidableEq, Repr

namespace ScriptIndex

def empty : ScriptIndex := ⟨[]⟩

def insert (c : ScriptIndex) (key : UnitKey) (scripts : List Path) : ScriptIndex :=
  ⟨(key, scripts) :: c.entries.filter (·.1 ≠ key)⟩

def insertAll (c : ScriptIndex) (entries : List (UnitKey × List Path)) : ScriptIndex :=
  entries.foldl (fun c e => c.insert e.1 e.2) c

def scripts? (c : ScriptIndex) (key : UnitKey) : Option (List Path) :=
  c.entries.lookup key

def size (c : ScriptIndex) : Nat :=
  c.entries.length

end ScriptIndex

def batchUnit : String := "batch"

abbrev UnitScripts := List (String × List Path)

structure ScriptTree (φ : Type) where
  files : φ
  inputDirectory : Path
  mapping : Option TableMapping
  index : ScriptIndex

structure TableDirectory where
  name : String
  path : Path
  deriving DecidableEq, Repr

section
variable {φ : Type} [FileSystem φ]

/-- The directories right below `dir` with their names, but for those whose names are no texts. -/
def subdirectories (files : φ) (dir : Path) : Except FileError (List (String × Path)) := do
  let entries ← FileSystem.list files dir
  return (entries.filter (FileSystem.isDirectory files)).filterMap fun p =>
    (p.fileName?.bind Text.read?).map fun name => (name, p)

def tablesIn (files : φ) (database : String × Path) : Except FileError (List TableDirectory) := do
  let tables ← subdirectories files database.2
  return tables.map fun table => ⟨database.1 ++ "." ++ table.1, table.2⟩

/-- The unit that a script belongs to, which in single mode is its stem and must be a text. -/
def unitOf? (mode : Mode) (script : Path) : Option String :=
  match mode with
  | .batch => some batchUnit
  | .single => script.fileStem?.bind Text.read?

/-- Scripts by unit; the scripts of a unit keep their order, and those without one are left out. -/
def groupScripts (mode : Mode) (scripts : List Path) : UnitScripts :=
  scripts.foldl (fun units script =>
    match unitOf? mode script with
    | some id => Ordered.alter id (fun had => had.getD [] ++ [script]) units
    | none => units) []

def unitsIn (files : φ) (mode : Mode) (dir : Path) : Except FileError UnitScripts :=
  if FileSystem.isDirectory files dir then do
    let entries ← FileSystem.list files dir
    return groupScripts mode (entries.filter (FileSystem.isFile files))
  else .ok []

end

def seedsOf (found : List (Action × UnitScripts)) : PerAction (List String) :=
  fun a => (found.lookup a).map fun units => units.map (·.1)

def indexEntries (task : String) (a : Action) (units : UnitScripts) : List (UnitKey × List Path) :=
  units.map fun (id, scripts) => (⟨task, a, id⟩, scripts)

/-- A part of a generation, which adds to the index as it goes along, also if it fails later. -/
abbrev Generating := ExceptT Error (StateM ScriptIndex)

namespace Generating

def of {α : Type} (result : Except Error α) : Generating α :=
  fun index => (result, index)

def add (entries : List (UnitKey × List Path)) : Generating Unit :=
  fun index => (.ok (), index.insertAll entries)

end Generating

namespace ScriptTree

variable {φ : Type} [FileSystem φ]

def new (files : φ) (inputDirectory : Path) (mapping : Option TableMapping) : ScriptTree φ :=
  ⟨files, inputDirectory, mapping, .empty⟩

def isMapped (f : ScriptTree φ) (name : String) : Bool :=
  match f.mapping with
  | some m => m.contains (Text.lowercase name)
  | none => true

def destination? (f : ScriptTree φ) (name : String) : Option String :=
  f.mapping.bind fun m => m.destination? (Text.lowercase name)

def direct (f : ScriptTree φ) (t : Task) : Task :=
  match f.destination? t.name with
  | some destination => t.withDestination destination
  | none => t

/-- Builds the task of a table, and adds the scripts of its units to the index, action by action. -/
def buildTask (f : ScriptTree φ) (plan : Plan) (mode : Mode) (table : TableDirectory) :
    Generating Task := do
  let found ← plan.gated.mapM fun a => do
    let units ← Generating.of ((unitsIn f.files mode (table.path.join a.name)).mapError .file)
    Generating.add (indexEntries table.name a units)
    return (a, units)
  let task ← Generating.of ((Task.ofPlan table.name plan (seedsOf found)).mapError .plan)
  return f.direct task

def buildTasks (f : ScriptTree φ) (plan : Plan) (mode : Mode) : Generating (List Task) := do
  if !FileSystem.isDirectory f.files f.inputDirectory then
    throw (.inputDirectory f.inputDirectory)
  let databases ← Generating.of ((subdirectories f.files f.inputDirectory).mapError .file)
  let built ← databases.mapM fun database => do
    let tables ← Generating.of ((tablesIn f.files database).mapError .file)
    (tables.filter fun t => f.isMapped t.name).mapM (f.buildTask plan mode)
  return built.flatten

def generate (f : ScriptTree φ) (plan : Plan) (mode : Mode) : ScriptTree φ × Except Error (List Task) :=
  let (built, index) := (f.buildTasks plan mode).run.run f.index
  ({ f with index }, built)

def tasks (f : ScriptTree φ) (plan : Plan) (mode : Mode) :
    Except Error (ScriptTree φ × List Task) :=
  match f.generate plan mode with
  | (f, .ok tasks) => .ok (f, tasks)
  | (_, .error e) => .error e

end ScriptTree

end TableMigration
