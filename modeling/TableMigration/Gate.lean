import TableMigration.Task

/-!
# Admission under ceilings

A ceiling bounds how many units of one action run at the same time over all tasks. Running units
are counted anew each time, from the tasks as they are. A window is what an action may still admit
in one round.
-/

namespace TableMigration

structure Gate where
  ceiling : PerAction Nat

inductive Admission
  /-- The compare stage, which is never held back. -/
  | ungated
  | opened (inFlight ceiling : Nat)
  | saturated (inFlight ceiling : Nat)
  /-- A gated action without a ceiling. -/
  | unconfigured
  deriving DecidableEq, Repr

structure Window where
  inFlight : Nat
  ceiling : Option Nat
  deriving DecidableEq, Repr

namespace Window

def unbounded : Window := ⟨0, none⟩

def bounded (inFlight ceiling : Nat) : Window := ⟨inFlight, some ceiling⟩

def isOpen (w : Window) : Bool :=
  match w.ceiling with
  | none => true
  | some c => w.inFlight < c

def admitOne (w : Window) : Window :=
  { w with inFlight := w.inFlight + 1 }

end Window

namespace Gate

def uniform (plan : Plan) (ceiling : Nat) : Gate :=
  ⟨fun a => if plan.gated.contains a then some ceiling else none⟩

def withCeiling (g : Gate) (a : Action) (ceiling : Nat) : Gate :=
  ⟨g.ceiling.insert a ceiling⟩

def without (g : Gate) (a : Action) : Gate :=
  ⟨g.ceiling.erase a⟩

def inFlight (a : Action) : List Task → Nat
  | [] => 0
  | t :: tasks => ((t.stage? a).map (·.runningCount)).getD 0 + inFlight a tasks

def admission (g : Gate) (a : Action) (tasks : List Task) : Admission :=
  if a.isCompare then .ungated
  else
    match g.ceiling a with
    | none => .unconfigured
    | some c =>
      let n := inFlight a tasks
      if c ≤ n then .saturated n c else .opened n c

end Gate

end TableMigration
