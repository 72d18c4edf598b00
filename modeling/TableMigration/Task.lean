import TableMigration.Plan
import TableMigration.Stage

/-!
# Tasks

A task is the migration of one table: the stages of its plan in order, and the progress last
derived from them. A stage is ready once every stage before it has succeeded and it has something
to start.
-/

namespace TableMigration

structure Task where
  name : String
  destination : Option String
  stages : List Stage
  progress : Progress
  deriving DecidableEq, Repr

structure Snapshot where
  name : String
  progress : Progress
  actions : List (Action × Progress)
  deriving DecidableEq, Repr

namespace Task

/-- The stage for `a` of the task `name`. Every gated action needs units, be they none, and the
compare stage can have none. -/
def seedStage (name : String) (seeds : PerAction (List String)) (a : Action) :
    Except PlanError Stage :=
  match seeds a with
  | some ids => if a.isCompare then .error (.unitsForCompare name a) else .ok (.ofIds a ids)
  | none => if a.isCompare then .ok (.ofIds a []) else .error (.unseeded name a)

def ofPlan (name : String) (plan : Plan) (seeds : PerAction (List String)) :
    Except PlanError Task := do
  let stages ← plan.actions.mapM (seedStage name seeds)
  match Action.catalog.find? fun a => (seeds a).isSome && !plan.contains a with
  | some extra => .error (.outsidePlan name extra plan.source)
  | none => .ok ⟨name, none, stages, .new⟩

def withDestination (t : Task) (destination : String) : Task :=
  { t with destination := some destination }

def actions (t : Task) : List Action :=
  t.stages.map (·.action)

def stage? (t : Task) (a : Action) : Option Stage :=
  t.stages.find? (·.action == a)

def isTerminal (t : Task) : Bool :=
  t.progress.isTerminal

/-- Whether `a` is ready when every stage before these has succeeded. -/
def readyIn (a : Action) : List Stage → Bool
  | [] => false
  | s :: rest =>
    if s.action = a then s.acceptsWork else s.progress == .succeeded && readyIn a rest

def isReady (t : Task) (a : Action) : Bool :=
  readyIn a t.stages

def refreshStages : List Stage → List Stage
  | [] => []
  | s :: rest =>
    let s := s.refresh
    if s.progress = .failed then s :: rest else s :: refreshStages rest

/-- Derives the progress of the task from its units. Once a stage has failed the later ones do
not count, and what is stored for them stays. -/
def refresh (t : Task) : Task :=
  let stages := refreshStages t.stages
  { t with stages, progress := Progress.aggregate (stages.map (·.progress)) }

def updateStage (t : Task) (a : Action) (f : Stage → Stage) : Task :=
  { t with stages := t.stages.map fun s => if s.action = a then f s else s }

def finish (t : Task) (a : Action) (id : String) (o : Outcome) : Task × Bool :=
  match t.stage? a with
  | some s =>
    if (s.finish id o).2 then (t.updateStage a fun s => (s.finish id o).1, true) else (t, false)
  | none => (t, false)

/-- The task as a former run left it: everything has succeeded. -/
def assumeSucceeded (t : Task) : Task :=
  { t with stages := t.stages.map Stage.assumeSucceeded, progress := .succeeded }

def unitProgress? (t : Task) (a : Action) (id : String) : Option Progress :=
  (t.stage? a).bind (·.unitProgress? id)

def snapshot (t : Task) : Snapshot :=
  ⟨t.name, t.progress, t.stages.map fun s => (s.action, s.progress)⟩

end Task

def Snapshot.render (paint : Progress → String) (s : Snapshot) : String :=
  s.name ++ ":" ++ paint s.progress ++ "-->" ++
    String.join (s.actions.map fun p => " " ++ p.1.name ++ "(" ++ paint p.2 ++ ")")

def Snapshot.plain (s : Snapshot) : String :=
  s.render Progress.name

def Snapshot.colored (s : Snapshot) : String :=
  s.render Progress.colored

end TableMigration
