import TableMigration.Dispatch.Policy
import TableMigration.Scheduler

/-!
# The heartbeat

Ticks follow one another until every task is terminal or a tick stops at a fault. Between two
ticks the world moves on: `between n` is what happens after the tick `n`, such as units that
finish.
-/

namespace TableMigration

structure Conclusion where
  ticks : Nat
  summary : Summary
  snapshot : List Snapshot
  fault : Option Fault
  deriving DecidableEq, Repr

/-- No fault and no failed task. -/
def Conclusion.isClean (o : Conclusion) : Bool :=
  o.fault.isNone && o.summary.failed == 0

structure Heartbeat (σ δ ν : Type) where
  scheduler : Scheduler σ δ ν
  /-- The snapshots shown after each tick that did not fault. -/
  shown : List Snapshot
  outcome : Option Conclusion

namespace Heartbeat

variable {σ δ ν : Type} [NameStore σ] [Dispatcher δ] [Validator ν]

def stop (s : Scheduler σ δ ν) (ticks : Nat) (fault : Option Fault) : Conclusion :=
  ⟨ticks, s.summary, s.snapshot, fault⟩

def run (between : Nat → Scheduler σ δ ν → Scheduler σ δ ν) (s : Scheduler σ δ ν) (ticks : Nat)
    (shown : List Snapshot) : Nat → Heartbeat σ δ ν
  | 0 => ⟨s, shown, none⟩
  | fuel + 1 =>
    match s.tick with
    | (s, .error f) => ⟨s, shown, some (stop s (ticks + 1) (some f))⟩
    | (s, .ok report) =>
      let shown := shown ++ report.snapshot
      if report.allFinished then
        let s := s.shutdown
        ⟨s, shown, some (stop s (ticks + 1) none)⟩
      else run between (between (ticks + 1) s) (ticks + 1) shown fuel

def printed (beat : Heartbeat σ δ ν) : String :=
  String.join (beat.shown.map fun s => s.colored ++ "\n")

/-- Units held by a policy until a time are settled before the tick after it; the tick `n + 1`
comes `n` intervals after the first. -/
def elapse (interval : Nat) (n : Nat) (s : Scheduler σ PolicyDispatcher ν) :
    Scheduler σ PolicyDispatcher ν :=
  let (due, dispatcher) := s.dispatcher.advance (n * interval)
  { s with dispatcher }.finishAll due .succeeded

end Heartbeat

end TableMigration
