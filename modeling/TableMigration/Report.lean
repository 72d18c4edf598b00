import TableMigration.Dispatch
import TableMigration.Task
import TableMigration.Validation

/-!
# Reports

What one tick of the scheduler did, and what can stop it.
-/

namespace TableMigration

inductive HoldReason
  | saturated (inFlight ceiling : Nat)
  | unconfigured
  deriving DecidableEq, Repr

structure Report where
  /-- Every task was terminal and nothing was scheduled. -/
  allFinished : Bool
  /-- Units admitted, in order. -/
  admitted : List UnitKey
  validations : List (String × Bool)
  /-- Stages without units that were completed. -/
  skippedEmpty : List (String × Action)
  /-- Tasks recorded in the failover log. -/
  newlyRecorded : List String
  gated : List (Action × HoldReason)
  snapshot : List Snapshot
  deriving DecidableEq, Repr

namespace Report

def empty : Report := ⟨false, [], [], [], [], [], []⟩

def admissionsOf (r : Report) (a : Action) : Nat :=
  r.admitted.countP (·.action == a)

end Report

inductive Fault
  | unknownAction (task : String) (action : Action)
  | dispatch (error : DispatchError)
  | crash (payload : Payload)
  deriving DecidableEq, Repr

structure Summary where
  total : Nat
  succeeded : Nat
  failed : Nat
  /-- Tasks that a former run had finished. -/
  resumed : Nat
  deriving DecidableEq, Repr

end TableMigration
