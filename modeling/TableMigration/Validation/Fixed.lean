import TableMigration.Validation

/-!
# Fixed verdicts

A validator with a fixed verdict for each table, which logs the tables it is asked about, and one
that crashes on some tables before the validator inside it is asked.
-/

namespace TableMigration

structure FixedValidator where
  failing : List String
  crashing : List String
  /-- The tables asked about, in order. -/
  calls : List String
  deriving DecidableEq, Repr

def FixedValidator.verdict (v : FixedValidator) (t : Task) : Verdict :=
  if v.crashing.contains t.name then .crashed (.text ("validator exploded on " ++ t.name))
  else .ofBool (!v.failing.contains t.name)

instance : Validator FixedValidator where
  validate v _ t := ({ v with calls := v.calls ++ [t.name] }, v.verdict t)

structure Tripwire (ν : Type) where
  payloads : List (String × Payload)
  inner : ν

instance {ν : Type} [Validator ν] : Validator (Tripwire ν) where
  validate v counts t :=
    match v.payloads.lookup t.name with
    | some payload => (v, .crashed payload)
    | none =>
      let (inner, verdict) := Validator.validate v.inner counts t
      ({ v with inner }, verdict)

end TableMigration
