import TableMigration.Progress
import TableMigration.Action

/-!
# Dispatching units

The scheduler hands each admitted unit to a dispatcher by its handle. The unit is running by then,
and the handle is what settles it.
-/

namespace TableMigration

structure UnitKey where
  task : String
  action : Action
  unit : String
  deriving DecidableEq, Repr

/-- A unit that was handed out, and the position of its task in the population. -/
structure Handle extends UnitKey where
  owner : Nat
  deriving DecidableEq, Repr

inductive DispatchError
  | refused (action : Action) (task : String)
  /-- No warehouse runs scripts for the action. -/
  | noRunner (action : Action) (task : String)
  | noScripts (unit : UnitKey)
  deriving DecidableEq, Repr

def DispatchError.message : DispatchError → String
  | .refused action task => "refusing " ++ action.name ++ " for " ++ task
  | .noRunner action task =>
    action.name ++ " has no runner; it cannot be dispatched (task " ++ task ++ ")"
  | .noScripts unit =>
    "no scripts registered for " ++ unit.task ++ "/" ++ unit.action.name ++ "/" ++ unit.unit

inductive Receipt
  /-- The unit runs on. -/
  | running
  | finished (outcome : Outcome)
  | refused (error : DispatchError)
  deriving DecidableEq, Repr

class Dispatcher (δ : Type) where
  submit : δ → Handle → δ × Receipt
  /-- The run is over; what still runs may be given up. -/
  shutdown : δ → δ

instance {δ ε : Type} [Dispatcher δ] [Dispatcher ε] : Dispatcher (δ ⊕ ε) where
  submit
    | .inl d, h => let (d, receipt) := Dispatcher.submit d h; (.inl d, receipt)
    | .inr d, h => let (d, receipt) := Dispatcher.submit d h; (.inr d, receipt)
  shutdown
    | .inl d => .inl (Dispatcher.shutdown d)
    | .inr d => .inr (Dispatcher.shutdown d)

end TableMigration
