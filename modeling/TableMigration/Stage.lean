import TableMigration.Action
import TableMigration.Ordered
import TableMigration.Progress

/-!
# Stages

A stage is one action of one table: its units of work, and the progress last derived from them.
The progress of a stage without units is decided elsewhere and only stored here.
-/

namespace TableMigration

structure WorkUnit where
  id : String
  progress : Progress
  deriving DecidableEq, Repr

/-- Units are in ascending order of their ids, which are unique in a stage. -/
structure Stage where
  action : Action
  progress : Progress
  units : List WorkUnit
  deriving DecidableEq, Repr

namespace Stage

/-- A stage whose units are new; an id given twice names one unit. -/
def ofIds (action : Action) (ids : List String) : Stage :=
  ⟨action, .new, (Ordered.ofKeys ids).map fun id => ⟨id, .new⟩⟩

def ids (s : Stage) : List String :=
  s.units.map (·.id)

def unitProgress? (s : Stage) (id : String) : Option Progress :=
  (s.units.find? (·.id == id)).map (·.progress)

def hasUnits (s : Stage) : Bool :=
  !s.units.isEmpty

def hasWaiting (s : Stage) : Bool :=
  s.units.any (·.progress == .new)

def newIds (s : Stage) : List String :=
  (s.units.filter (·.progress == .new)).map (·.id)

def runningCount (s : Stage) : Nat :=
  s.units.countP (·.progress == .running)

def setUnit (s : Stage) (id : String) (p : Progress) : Stage :=
  { s with units := s.units.map fun u => if u.id = id then { u with progress := p } else u }

def start? (s : Stage) (id : String) : Option Stage :=
  if s.unitProgress? id = some .new then some (s.setUnit id .running) else none

def finish (s : Stage) (id : String) (o : Outcome) : Stage × Bool :=
  if s.unitProgress? id = some .running then (s.setUnit id o.progress, true) else (s, false)

/-- Whether the stage has something to start: a new unit, or a verdict not given yet. -/
def acceptsWork (s : Stage) : Bool :=
  !s.progress.isTerminal && if s.hasUnits then s.hasWaiting else s.progress == .new

/-- The progress of the units, or the stored one where there are none. -/
def liveProgress (s : Stage) : Progress :=
  if s.hasUnits then Progress.aggregate (s.units.map (·.progress)) else s.progress

def refresh (s : Stage) : Stage :=
  { s with progress := s.liveProgress }

def assumeSucceeded (s : Stage) : Stage :=
  { s with
    progress := .succeeded
    units := s.units.map fun u => { u with progress := .succeeded } }

end Stage

end TableMigration
