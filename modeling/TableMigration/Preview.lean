import TableMigration.Settings

/-!
# The preview of a run

What a dry run prints: the settings, the actions of the plan with their ceilings, and the tasks
with their units.
-/

namespace TableMigration

structure Preview where
  settings : Settings
  plan : Plan
  gate : Gate
  tasks : List Task

namespace Preview

def settingLines (settings : Settings) (source : Source) : List String :=
  ["datacarrier dry-run",
   "  source = " ++ source.name,
   "  scheduler.heartbeat_interval_ms = " ++ toString settings.scheduler.interval,
   "  scheduler.failover_file = " ++ settings.scheduler.failoverFile,
   "  runners.source = " ++ settings.runners.source,
   "  runners.destination = " ++ settings.runners.destination]

def actionLine (gate : Gate) (a : Action) : String :=
  match gate.ceiling a with
  | some c => "  - " ++ a.name ++ " (ceiling " ++ toString c ++ ")"
  | none => "  - " ++ a.name

def taskLines (t : Task) : List String :=
  let head := match t.destination with
    | some destination => "  - " ++ t.name ++ " -> " ++ destination
    | none => "  - " ++ t.name
  head :: (t.stages.filter (·.hasUnits)).map fun s =>
    "      " ++ s.action.name ++ ": " ++ ", ".intercalate s.ids

def lines (p : Preview) : List String :=
  settingLines p.settings p.plan.source ++
    ("" :: ("actions (" ++ toString p.plan.actions.length ++ "):") ::
      p.plan.actions.map (actionLine p.gate)) ++
    ("" :: ("tasks (" ++ toString p.tasks.length ++ "):") :: p.tasks.flatMap taskLines)

def render (p : Preview) : String :=
  String.join (p.lines.map (· ++ "\n"))

end Preview

end TableMigration
