import TableMigration.Failover
import TableMigration.Gate
import TableMigration.Report

/-!
# The scheduler

A tick observes the tasks as they are and then walks the actions of the plan in order. For each
action that the gate leaves open, the tasks that are ready for it are admitted one after another,
each with all its new units, until the window closes. Between ticks units are settled through
their handles.

Every operation gives back the state it leaves behind, also when it stops at a fault.
-/

namespace TableMigration

structure Scheduler (σ δ ν : Type) where
  plan : Plan
  tasks : List Task
  gate : Gate
  log : FailoverLog σ
  dispatcher : δ
  validator : ν
  counts : RowCounts
  /-- Every handle given to the dispatcher, in order, those it refused included. -/
  handles : List Handle
  resumed : Nat

/-- What a round of admission carries from task to task. -/
structure Round (σ δ ν : Type) where
  window : Window
  log : FailoverLog σ
  dispatcher : δ
  validator : ν
  counts : RowCounts
  handles : List Handle
  report : Report

inductive Course
  | next
  /-- The window is closed; the tasks that remain wait for another tick. -/
  | closed
  | fault (f : Fault)
  deriving DecidableEq, Repr

namespace Task

def start (t : Task) (a : Action) (id : String) : Except Fault (Option Task) :=
  match t.stage? a with
  | none => .error (.unknownAction t.name a)
  | some s =>
    match s.start? id with
    | none => .ok none
    | some s' => .ok (some (t.updateStage a fun _ => s'))

def setProgress (t : Task) (a : Action) (p : Progress) : Except Fault Task :=
  match t.stage? a with
  | none => .error (.unknownAction t.name a)
  | some _ => .ok (t.updateStage a fun s => { s with progress := p })

end Task

section
variable {σ δ ν : Type} [NameStore σ] [Dispatcher δ] [Validator ν]

/-- Refreshes a task and records it if it has succeeded and was not recorded before. -/
def settleTask (t : Task) (log : FailoverLog σ) (report : Report) :
    Task × FailoverLog σ × Report :=
  let t := t.refresh
  if t.progress = .succeeded then
    match log.record t.name with
    | (log, true) => (t, log, { report with newlyRecorded := report.newlyRecorded ++ [t.name] })
    | (log, false) => (t, log, report)
  else (t, log, report)

namespace Round

def settle (r : Round σ δ ν) (t : Task) : Task × Round σ δ ν :=
  let (t, log, report) := settleTask t r.log r.report
  (t, { r with log, report })

/-- Starts units of a task and submits them, until one is refused. -/
def submit (owner : Nat) (a : Action) (t : Task) (r : Round σ δ ν) :
    List String → Task × Round σ δ ν × Option Fault
  | [] => (t, r, none)
  | id :: ids =>
    match t.start a id with
    | .error f => (t, r, some f)
    | .ok none => submit owner a t r ids
    | .ok (some t) =>
      let h : Handle := ⟨⟨t.name, a, id⟩, owner⟩
      let (dispatcher, receipt) := Dispatcher.submit r.dispatcher h
      let r := { r with dispatcher, handles := r.handles ++ [h] }
      let admitted := { r with
        window := r.window.admitOne
        report := { r.report with admitted := r.report.admitted ++ [h.toUnitKey] } }
      match receipt with
      | .refused e => (t, r, some (.dispatch e))
      | .running => submit owner a t admitted ids
      | .finished o => submit owner a (t.finish a id o).1 admitted ids

def validate (a : Action) (t : Task) (r : Round σ δ ν) : Task × Round σ δ ν × Course :=
  let (validator, verdict) := Validator.validate r.validator r.counts t
  let r := { r with validator }
  let judged (passed : Bool) :=
    let r := { r with
      report := { r.report with validations := r.report.validations ++ [(t.name, passed)] } }
    match t.setProgress a (if passed then .succeeded else .failed) with
    | .error f => (t, r, Course.fault f)
    | .ok t => let (t, r) := r.settle t; (t, r, .next)
  match verdict with
  | .crashed payload => (t, r, .fault (.crash payload))
  | .passed => judged true
  | .rejected => judged false

def skip (a : Action) (t : Task) (r : Round σ δ ν) : Task × Round σ δ ν × Course :=
  match t.setProgress a .succeeded with
  | .error f => (t, r, .fault f)
  | .ok t =>
    let report := { r.report with skippedEmpty := r.report.skippedEmpty ++ [(t.name, a)] }
    let (t, r) := { r with report }.settle t
    (t, r, .next)

/-- Admits one task for `a` if it is ready and the window is open. -/
def admitTask (owner : Nat) (a : Action) (t : Task) (r : Round σ δ ν) :
    Task × Round σ δ ν × Course :=
  let t := t.refresh
  if !t.isReady a then (t, r, .next)
  else if !r.window.isOpen then (t, r, .closed)
  else if a.isCompare then r.validate a t
  else
    match t.stage? a with
    | none => (t, r, .fault (.unknownAction t.name a))
    | some s =>
      if !s.hasUnits then r.skip a t
      else
        match r.submit owner a t s.newIds with
        | (t, r, some f) => (t, r, .fault f)
        | (t, r, none) => let (t, r) := r.settle t; (t, r, .next)

def run (a : Action) (owner : Nat) (r : Round σ δ ν) :
    List Task → List Task × Round σ δ ν × Option Fault
  | [] => ([], r, none)
  | t :: ts =>
    match r.admitTask owner a t with
    | (t, r, .next) => let (ts, r, f) := run a (owner + 1) r ts; (t :: ts, r, f)
    | (t, r, .closed) => (t :: ts, r, none)
    | (t, r, .fault f) => (t :: ts, r, some f)

end Round

namespace Scheduler

/-- A scheduler over `tasks`; those the failover log has as finished count as succeeded. -/
def new (plan : Plan) (tasks : List Task) (gate : Gate) (log : FailoverLog σ) (dispatcher : δ)
    (validator : ν) : Scheduler σ δ ν where
  plan
  tasks := tasks.map fun t => if log.isFinished t.name then t.assumeSucceeded else t
  gate
  log
  dispatcher
  validator
  counts := .empty
  handles := []
  resumed := tasks.countP fun t => log.isFinished t.name

def task? (s : Scheduler σ δ ν) (name : String) : Option Task :=
  s.tasks.find? (·.name == name)

def snapshot (s : Scheduler σ δ ν) : List Snapshot :=
  s.tasks.map (·.snapshot)

def summary (s : Scheduler σ δ ν) : Summary where
  total := s.tasks.length
  succeeded := s.tasks.countP (·.progress == .succeeded)
  failed := s.tasks.countP (·.progress == .failed)
  resumed := s.resumed

def observeTasks (log : FailoverLog σ) (report : Report) :
    List Task → List Task × FailoverLog σ × Report
  | [] => ([], log, report)
  | t :: ts =>
    let (t, log, report) := settleTask t log report
    let (ts, log, report) := observeTasks log report ts
    (t :: ts, log, report)

def observe (s : Scheduler σ δ ν) (report : Report) : Scheduler σ δ ν × Report × Bool :=
  let (tasks, log, report) := observeTasks s.log report s.tasks
  ({ s with tasks, log }, report, tasks.all (·.isTerminal))

def admitWith (s : Scheduler σ δ ν) (a : Action) (report : Report) (window : Window) :
    Scheduler σ δ ν × Report × Option Fault :=
  let round : Round σ δ ν := ⟨window, s.log, s.dispatcher, s.validator, s.counts, s.handles, report⟩
  let (tasks, r, f) := round.run a 0 s.tasks
  ({ s with
      tasks
      log := r.log
      dispatcher := r.dispatcher
      validator := r.validator
      handles := r.handles }, r.report, f)

def schedule (s : Scheduler σ δ ν) (a : Action) (report : Report) :
    Scheduler σ δ ν × Report × Option Fault :=
  match s.gate.admission a s.tasks with
  | .ungated => s.admitWith a report .unbounded
  | .opened n c => s.admitWith a report (.bounded n c)
  | .saturated n c => (s, { report with gated := report.gated ++ [(a, .saturated n c)] }, none)
  | .unconfigured => (s, { report with gated := report.gated ++ [(a, .unconfigured)] }, none)

def scheduleAll (s : Scheduler σ δ ν) (report : Report) :
    List Action → Scheduler σ δ ν × Except Fault Report
  | [] => (s, .ok report)
  | a :: rest =>
    match s.schedule a report with
    | (s, _, some f) => (s, .error f)
    | (s, report, none) => s.scheduleAll report rest

/-- One heartbeat: observe, and unless all is finished schedule every action of the plan. -/
def tick (s : Scheduler σ δ ν) : Scheduler σ δ ν × Except Fault Report :=
  match s.observe .empty with
  | (s, report, true) => (s, .ok { report with allFinished := true, snapshot := s.snapshot })
  | (s, report, false) =>
    let (s, result) := s.scheduleAll report s.plan.actions
    (s, result.map fun report => { report with snapshot := s.snapshot })

def finish (s : Scheduler σ δ ν) (h : Handle) (o : Outcome) : Scheduler σ δ ν × Bool :=
  match s.tasks[h.owner]? with
  | none => (s, false)
  | some t =>
    let (t, settled) := t.finish h.action h.unit o
    ({ s with tasks := s.tasks.set h.owner t }, settled)

def finishAll (s : Scheduler σ δ ν) (hs : List Handle) (o : Outcome) : Scheduler σ δ ν :=
  hs.foldl (fun s h => (s.finish h o).1) s

def progress? (s : Scheduler σ δ ν) (h : Handle) : Option Progress :=
  s.tasks[h.owner]?.bind fun t => t.unitProgress? h.action h.unit

def refresh (s : Scheduler σ δ ν) (name : String) : Scheduler σ δ ν :=
  match s.tasks.findIdx? (·.name == name) with
  | some i => { s with tasks := s.tasks.modify i Task.refresh }
  | none => s

def recordCount (s : Scheduler σ δ ν) (key : CountKey) (n : Nat) : Scheduler σ δ ν :=
  { s with counts := s.counts.record key n }

def shutdown (s : Scheduler σ δ ν) : Scheduler σ δ ν :=
  { s with dispatcher := Dispatcher.shutdown s.dispatcher }

end Scheduler

end

end TableMigration
