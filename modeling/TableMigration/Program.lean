import TableMigration.Arguments
import TableMigration.FileSystem.Disk
import TableMigration.Heartbeat
import TableMigration.Preview
import TableMigration.Script.Tree
import TableMigration.Script.Run
import TableMigration.Settings.Reading

/-!
# The program

A run resolves its settings, turns the input directory into tasks and then either previews them or
migrates them: it ticks until every table has succeeded or failed, and the scripts of a tick have
all run by the next one.
-/

namespace TableMigration

inductive RunError
  | notStarted (e : Error)
  | stopped (f : Fault)
  | failedTables (failed total : Nat)
  deriving DecidableEq, Repr

def RunError.message : RunError → String
  | .notStarted e => e.message
  | .stopped _ => "scheduler loop stopped early"
  | .failedTables failed total =>
    toString failed ++ " of " ++ toString total ++
      " tables failed; finished tables are skipped on rerun"

structure RunResult where
  files : Disk
  printed : String
  error : Option RunError

def usualSettingsFile : Path := ⟨"datacarrier.toml"⟩

section
variable {φ : Type} [FileSystem φ]

def Settings.load (files : φ) (p : Path) : Except Error Settings := do
  let text ← (FileSystem.readText files p).mapError fun _ => .unreadableSettings
  match Settings.read? text with
  | none => throw .malformedSettings
  | some settings => settings.check.mapError .setting

def Settings.resolve (files : φ) : Option Path → Except Error Settings
  | some p => Settings.load files p
  | none =>
    if FileSystem.isFile files usualSettingsFile then Settings.load files usualSettingsFile
    else .ok .standard

def TableMapping.load (files : φ) (p : Path) : Except Error TableMapping := do
  let text ← (FileSystem.readText files p).mapError .file
  (TableMapping.parse text).mapError .mapping

def TableMapping.load? (files : φ) : Option Path → Except Error (Option TableMapping)
  | some p => (TableMapping.load files p).map some
  | none => .ok none

structure Preparation extends Preview where
  index : ScriptIndex

def Preparation.of (args : Arguments) (files : φ) : Except Error Preparation := do
  let settings ← Settings.resolve files args.settings
  let plan := Plan.standard args.source
  let mapping ← TableMapping.load? files args.mapping
  let (tree, tasks) ← (ScriptTree.new files args.inputDirectory mapping).tasks plan args.mode
  return ⟨⟨settings, plan, Gate.ofSettings settings.concurrency plan, tasks⟩, tree.index⟩

end

namespace Preparation

def scheduler (p : Preparation) (files : Disk) :
    Scheduler (FileStore Disk) ScriptRunner CountComparison :=
  .new p.plan p.tasks p.gate (.openOn ⟨files, ⟨p.settings.scheduler.failoverFile⟩⟩)
    (.new p.plan p.settings.runners p.index) (.ofPlan p.plan)

def runScripts (execute : Disk → String → Disk × ScriptResult)
    (s : Scheduler (FileStore Disk) ScriptRunner CountComparison) :
    Scheduler (FileStore Disk) ScriptRunner CountComparison :=
  let (files, s) := s.runJobs execute s.log.store.files
  { s with log.store.files := files }

/-- Every tick but the last starts a stage, as nothing runs any more when it comes. -/
def tickBound (p : Preparation) : Nat :=
  (p.tasks.flatMap (·.stages)).length + 2

def errorOf (beat : Heartbeat (FileStore Disk) ScriptRunner CountComparison) : Option RunError :=
  match beat.outcome.bind (·.fault) with
  | some f => some (.stopped f)
  | none =>
    let summary := beat.scheduler.summary
    if summary.failed = 0 then none else some (.failedTables summary.failed summary.total)

def migrate (execute : Disk → String → Disk × ScriptResult) (p : Preparation) (files : Disk) :
    RunResult :=
  let beat := Heartbeat.run (fun _ => runScripts execute) (p.scheduler files) 0 [] p.tickBound
  { files := beat.scheduler.log.store.files
    printed := if p.settings.scheduler.showsProgress then beat.printed else ""
    error := errorOf beat }

end Preparation

/-- A whole run, with command lines run by `execute`. -/
def runProgram (execute : Disk → String → Disk × ScriptResult) (args : Arguments) (files : Disk) :
    RunResult :=
  match Preparation.of args files with
  | .error e => ⟨files, "", some (.notStarted e)⟩
  | .ok p => if args.dryRun then ⟨files, p.render, none⟩ else p.migrate execute files

end TableMigration
