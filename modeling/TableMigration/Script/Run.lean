import TableMigration.Scheduler
import TableMigration.Script.Tree

/-!
# Running the scripts of units

The path of a script follows the command of its warehouse as one quoted word: all of it stands
between single quotes, but for the single quotes in it, each of which stands escaped between two
quoted pieces.

A unit runs its scripts one after another up to the first that fails. A validate unit then takes
its row count from what its last script printed, and fails if there is none.
-/

namespace TableMigration

def quoteChar (c : Char) : List Char :=
  if c = '\'' then ['\'', '\\', '\'', '\''] else [c]

def shellQuote (s : String) : String :=
  String.ofList ('\'' :: s.toList.flatMap quoteChar ++ ['\''])

def Runners.command (r : Runners) : Warehouse → String
  | .source => r.source
  | .destination => r.destination

def Runners.commandLine (r : Runners) (side : Warehouse) (script : Path) : String :=
  r.command side ++ " " ++ shellQuote script.text

inductive ScriptResult
  | notStarted
  /-- The exit status, and what was printed. -/
  | exited (status : Nat) (output : ByteArray)
  /-- Ended by a signal. -/
  | killed
  deriving DecidableEq

structure ScriptJob where
  handle : Handle
  commands : List String
  deriving DecidableEq, Repr

structure JobResult where
  outcome : Outcome
  count : Option Nat
  deriving DecidableEq, Repr

section
variable {ω : Type} (execute : ω → String → ω × ScriptResult)

/-- Runs command lines while they succeed. Gives what the last one printed, `printed` if there is
none, and nothing if one failed. -/
def runCommands (world : ω) (printed : String) : List String → ω × Option String
  | [] => (world, some printed)
  | command :: rest =>
    match execute world command with
    | (world, .exited 0 output) => runCommands world (Text.decodeLossy output) rest
    | (world, _) => (world, none)

end

def JobResult.of (a : Action) (printed : Option String) : JobResult :=
  match printed, a.measures? with
  | none, _ => ⟨.failed, none⟩
  | some _, none => ⟨.succeeded, none⟩
  | some printed, some _ =>
    match readRowCount printed with
    | .ok n => ⟨.succeeded, some n⟩
    | .error _ => ⟨.failed, none⟩

structure ScriptRunner where
  plan : Plan
  runners : Runners
  index : ScriptIndex
  /-- Units whose scripts have not been run to the end yet. -/
  running : List ScriptJob

namespace ScriptRunner

def new (plan : Plan) (runners : Runners) (index : ScriptIndex) : ScriptRunner :=
  ⟨plan, runners, index, []⟩

def submit (d : ScriptRunner) (h : Handle) : ScriptRunner × Receipt :=
  match d.plan.runner? h.action with
  | none => (d, .refused (.noRunner h.action h.task))
  | some side =>
    match d.index.scripts? h.toUnitKey with
    | none => (d, .refused (.noScripts h.toUnitKey))
    | some scripts =>
      let job : ScriptJob := ⟨h, scripts.map (d.runners.commandLine side)⟩
      ({ d with running := d.running ++ [job] }, .running)

instance : Dispatcher ScriptRunner where
  submit := submit
  shutdown d := { d with running := [] }

end ScriptRunner

namespace Scheduler

variable {σ δ ν ω : Type}

/-- Keeps the row count of a unit and settles it. -/
def complete (s : Scheduler σ δ ν) (h : Handle) (result : JobResult) : Scheduler σ δ ν :=
  let s := match h.action.measures?, result.count with
    | some side, some n => s.recordCount ⟨h.task, side, h.unit⟩ n
    | _, _ => s
  (s.finish h result.outcome).1

def runJob (execute : ω → String → ω × ScriptResult) (world : ω) (s : Scheduler σ δ ν)
    (job : ScriptJob) : ω × Scheduler σ δ ν :=
  let (world, printed) := runCommands execute world "" job.commands
  (world, s.complete job.handle (JobResult.of job.handle.action printed))

/-- Runs every unit on its way to its end, in the order of submission. -/
def runJobs (execute : ω → String → ω × ScriptResult) (world : ω)
    (s : Scheduler σ ScriptRunner ν) : ω × Scheduler σ ScriptRunner ν :=
  let jobs := s.dispatcher.running
  let s := { s with dispatcher := { s.dispatcher with running := [] } }
  jobs.foldl (fun (world, s) job => s.runJob execute world job) (world, s)

end Scheduler

end TableMigration
