import TableMigration.Gate
import TableMigration.Text.Split

/-!
# Settings

What a run can be told: the pace of the heartbeat and where finished tables are recorded, the
ceilings, and the commands that run scripts. `Settings.check` finds the first setting that a run
cannot work with.
-/

namespace TableMigration

structure SchedulerSettings where
  /-- Milliseconds from one tick to the next. -/
  interval : Nat
  failoverFile : String
  /-- Whether progress is printed at every tick. -/
  showsProgress : Bool
  deriving DecidableEq, Repr

structure ConcurrencySettings where
  standard : Nat
  overrides : PerAction Nat

structure Runners where
  source : String
  destination : String
  deriving DecidableEq, Repr

structure Settings where
  scheduler : SchedulerSettings
  concurrency : ConcurrencySettings
  runners : Runners

def SchedulerSettings.standard : SchedulerSettings := ⟨3000, "failover.out", true⟩

def ConcurrencySettings.usual : ConcurrencySettings := ⟨10, .empty⟩

def Runners.standard : Runners := ⟨"hive -f", "odpscmd -f"⟩

def Settings.standard : Settings := ⟨.standard, .usual, .standard⟩

def ConcurrencySettings.ceiling (c : ConcurrencySettings) (a : Action) : Nat :=
  (c.overrides a).getD c.standard

def Gate.ofSettings (c : ConcurrencySettings) (plan : Plan) : Gate :=
  ⟨fun a => if plan.gated.contains a then some (c.ceiling a) else none⟩

inductive SettingError
  | zeroInterval
  | blankFailoverFile
  | zeroStandard
  /-- A ceiling for the compare stage. -/
  | throttledCompare (action : Action)
  | zeroCeiling (action : Action)
  | blankRunner (side : Warehouse)
  deriving DecidableEq, Repr

def Warehouse.name : Warehouse → String
  | .source => "source"
  | .destination => "destination"

def SettingError.message : SettingError → String
  | .zeroInterval => "[scheduler].heartbeat_interval_ms must be >= 1 (got 0)"
  | .blankFailoverFile => "[scheduler].failover_file must not be empty"
  | .zeroStandard => "[concurrency].default must be >= 1 (got 0)"
  | .throttledCompare a =>
    "[concurrency.actions]." ++ a.name ++ " is not allowed: " ++ Action.compareResults.name ++
      " is never throttled"
  | .zeroCeiling a => "[concurrency.actions]." ++ a.name ++ " must be >= 1 (got 0)"
  | .blankRunner side => "[runners]." ++ side.name ++ " must not be empty"

namespace Settings

def overrideError? (entry : Action × Nat) : Option SettingError :=
  if entry.1.isCompare then some (.throttledCompare entry.1)
  else if entry.2 = 0 then some (.zeroCeiling entry.1)
  else none

def error? (s : Settings) : Option SettingError :=
  if s.scheduler.interval = 0 then some .zeroInterval
  else if Text.isAllBlank s.scheduler.failoverFile then some .blankFailoverFile
  else if s.concurrency.standard = 0 then some .zeroStandard
  else
    match s.concurrency.overrides.entries.findSome? overrideError? with
    | some e => some e
    | none =>
      if Text.isAllBlank s.runners.source then some (.blankRunner .source)
      else if Text.isAllBlank s.runners.destination then some (.blankRunner .destination)
      else none

def check (s : Settings) : Except SettingError Settings :=
  match s.error? with
  | some e => .error e
  | none => .ok s

end Settings

end TableMigration
