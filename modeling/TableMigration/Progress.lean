/-!
# Progress

How far a unit, a stage or a table has come, and the progress of a whole made of parts. `join` is
the least upper bound in the order where `new` and `succeeded` lie below `running` and everything
lies below `failed`, so the progress of a whole does not depend on how its parts are listed or
grouped.
-/

namespace TableMigration

inductive Progress
  | new
  | running
  | succeeded
  | failed
  deriving DecidableEq, Repr

inductive Outcome
  | succeeded
  | failed
  deriving DecidableEq, Repr

def Outcome.progress : Outcome → Progress
  | .succeeded => .succeeded
  | .failed => .failed

namespace Progress

def isTerminal : Progress → Bool
  | succeeded | failed => true
  | new | running => false

/-- A failed part fails the whole, equal parts agree, and a mixture is under way. -/
def join (p q : Progress) : Progress :=
  if p = failed ∨ q = failed then failed else if p = q then p else running

/-- The progress of a whole with these parts; one without parts is new. -/
def aggregate : List Progress → Progress
  | [] => new
  | p :: ps => ps.foldl join p

def name : Progress → String
  | new => "NEW"
  | running => "RUNNING"
  | succeeded => "SUCCEEDED"
  | failed => "FAILED"

def colour : Progress → Nat
  | new => 37
  | running => 33
  | succeeded => 32
  | failed => 31

def colored (p : Progress) : String :=
  "\x1b[" ++ toString p.colour ++ "m" ++ p.name ++ "\x1b[0m"

/-- Moves on to `next` only from `expected`, and says whether it moved. -/
def transition (p expected next : Progress) : Progress × Bool :=
  if p = expected then (next, true) else (p, false)

theorem join_comm (p q : Progress) : join p q = join q p := by
  cases p <;> cases q <;> rfl

theorem join_assoc (p q r : Progress) : join (join p q) r = join p (join q r) := by
  cases p <;> cases q <;> cases r <;> rfl

instance : Std.Associative join :=
  ⟨join_assoc⟩

end Progress

end TableMigration
