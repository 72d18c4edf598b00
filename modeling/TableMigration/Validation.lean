import TableMigration.RowCount
import TableMigration.Task

/-!
# Validation

The compare stage asks a validator for a verdict on a table, given the row counts reported so far.
`CountComparison` passes a table whose units counted the same rows in both warehouses.
-/

namespace TableMigration

inductive Payload
  | text (s : String)
  | unreadable
  deriving DecidableEq, Repr

inductive Verdict
  | passed
  | rejected
  | crashed (payload : Payload)
  deriving DecidableEq, Repr

def Verdict.ofBool : Bool → Verdict
  | true => .passed
  | false => .rejected

class Validator (ν : Type) where
  validate : ν → RowCounts → Task → ν × Verdict

/-- Compares the counts of both warehouses, in plans that take both. -/
structure CountComparison where
  compares : Bool
  deriving DecidableEq, Repr

namespace CountComparison

def ofPlan (plan : Plan) : CountComparison :=
  ⟨plan.contains .validateSource && plan.contains .validateDest⟩

def unitIds (t : Task) : List String :=
  [Action.validateSource, .validateDest].flatMap fun a => ((t.stage? a).map (·.ids)).getD []

def agree (counts : RowCounts) (task unit : String) : Bool :=
  match counts.get? ⟨task, .source, unit⟩, counts.get? ⟨task, .destination, unit⟩ with
  | some s, some d => s == d
  | _, _ => false

/-- Without anything to compare a task passes if its plan takes no counts, and else fails. -/
def passes (v : CountComparison) (counts : RowCounts) (t : Task) : Bool :=
  !v.compares || (unitIds t ≠ [] && (unitIds t).all (agree counts t.name))

instance : Validator CountComparison where
  validate v counts t := (v, .ofBool (v.passes counts t))

end CountComparison

instance {ν μ : Type} [Validator ν] [Validator μ] : Validator (ν ⊕ μ) where
  validate
    | .inl v, counts, t => let (v, verdict) := Validator.validate v counts t; (.inl v, verdict)
    | .inr v, counts, t => let (v, verdict) := Validator.validate v counts t; (.inr v, verdict)

end TableMigration
