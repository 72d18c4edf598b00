import TableMigration.Dispatch

/-!
# Dispatching by policy

A dispatcher that runs nothing and finishes units by a fixed rule for their task and action. It
logs what it accepts and holds units back until they are released or due.
-/

namespace TableMigration

inductive Completion
  | succeed
  | fail
  /-- Runs until it is released. -/
  | hold
  /-- Succeeds this many milliseconds later. -/
  | succeedAfter (delay : Nat)
  deriving DecidableEq, Repr

structure Policy where
  standard : Completion
  onAction : PerAction Completion
  /-- Rules for an action of one task, the latest first. -/
  onTask : List ((String × Action) × Completion)
  refuses : List Action

def Policy.completion (p : Policy) (h : Handle) : Completion :=
  match p.onTask.lookup (h.task, h.action) with
  | some c => c
  | none => (p.onAction h.action).getD p.standard

structure PolicyDispatcher where
  policy : Policy
  submitted : List UnitKey
  held : List Handle
  /-- Units with the time at which they succeed. -/
  timed : List (Nat × Handle)
  now : Nat
  shutdowns : Nat

namespace PolicyDispatcher

def ofPolicy (policy : Policy) : PolicyDispatcher :=
  ⟨policy, [], [], [], 0, 0⟩

def submit (d : PolicyDispatcher) (h : Handle) : PolicyDispatcher × Receipt :=
  if d.policy.refuses.contains h.action then (d, .refused (.refused h.action h.task))
  else
    let d := { d with submitted := d.submitted ++ [h.toUnitKey] }
    match d.policy.completion h with
    | .succeed => (d, .finished .succeeded)
    | .fail => (d, .finished .failed)
    | .hold => ({ d with held := d.held ++ [h] }, .running)
    | .succeedAfter delay => ({ d with timed := d.timed ++ [(d.now + delay, h)] }, .running)

instance : Dispatcher PolicyDispatcher where
  submit := submit
  shutdown d := { d with shutdowns := d.shutdowns + 1 }

/-- Takes out the held units that satisfy `p`. -/
def release (d : PolicyDispatcher) (p : Handle → Bool) : List Handle × PolicyDispatcher :=
  (d.held.filter p, { d with held := d.held.filter fun h => !p h })

/-- Moves the clock on to `time` and takes out the units due by then. -/
def advance (d : PolicyDispatcher) (time : Nat) : List Handle × PolicyDispatcher :=
  ((d.timed.filter (·.1 ≤ time)).map (·.2),
    { d with now := time, timed := d.timed.filter fun u => !(u.1 ≤ time) })

end PolicyDispatcher

end TableMigration
