import TableMigration.Action

/-!
# Action plans

A plan lists the actions applied to every table of a source, in pipeline order. The order is the
dependency chain inside a table: an action starts once every action before it has succeeded.
-/

namespace TableMigration

inductive PlanError
  | empty (source : Source)
  /-- Two neighbours that repeat an action or go back in the pipeline. -/
  | disorder (source : Source) (first second : Action)
  /-- Units for the compare stage. -/
  | unitsForCompare (task : String) (action : Action)
  | unseeded (task : String) (action : Action)
  /-- Units for an action that the plan lacks. -/
  | outsidePlan (task : String) (action : Action) (source : Source)
  deriving DecidableEq, Repr

def PlanError.message : PlanError → String
  | .empty source => "plan for " ++ source.name ++ " has no actions"
  | .disorder source first second =>
    "plan for " ++ source.name ++ " lists " ++ first.name ++ " before " ++ second.name ++
      "; actions must be unique and in pipeline order"
  | .unitsForCompare task action =>
    "task " ++ task ++ ": " ++ action.name ++ " cannot carry execution units"
  | .unseeded task action =>
    "task " ++ task ++ ": no execution units seeded for " ++ action.name
  | .outsidePlan task action source =>
    "task " ++ task ++ ": " ++ action.name ++ " is not part of the " ++ source.name ++ " plan"

def firstDisorder : List Action → Option (Action × Action)
  | a :: b :: rest => if a.rank < b.rank then firstDisorder (b :: rest) else some (a, b)
  | _ => none

theorem pairwise_of_firstDisorder {actions : List Action} (h : firstDisorder actions = none) :
    actions.Pairwise (·.rank < ·.rank) := by
  induction actions with
  | nil => exact List.Pairwise.nil
  | cons a rest ih =>
    cases rest with
    | nil => exact List.pairwise_singleton _ _
    | cons b rest =>
      unfold firstDisorder at h
      split at h
      next hab =>
        have tail := ih h
        refine List.Pairwise.cons (fun c hc => ?_) tail
        cases hc with
        | head => exact hab
        | tail _ hc => exact Nat.lt_trans hab (List.rel_of_pairwise_cons tail hc)
      next => contradiction

structure Plan where
  source : Source
  actions : List Action
  actions_ne_nil : actions ≠ []
  ascending : actions.Pairwise (·.rank < ·.rank)

namespace Plan

/-- The plan that lists `actions`, if there are any and they are in pipeline order. -/
def ofActions (source : Source) (actions : List Action) : Except PlanError Plan :=
  if hne : actions = [] then .error (.empty source)
  else
    match h : firstDisorder actions with
    | some (first, second) => .error (.disorder source first second)
    | none => .ok ⟨source, actions, hne, pairwise_of_firstDisorder h⟩

def standard : Source → Plan
  | .hive =>
    ⟨.hive, [.createTable, .addPartition, .loadData, .validateSource, .validateDest,
      .compareResults], by decide, by decide⟩
  | .oss =>
    ⟨.oss, [.createTable, .addPartition, .createExternalTable, .addExternalPartition, .loadData,
      .validateDest, .compareResults], by decide, by decide⟩

def contains (plan : Plan) (a : Action) : Bool :=
  plan.actions.contains a

def gated (plan : Plan) : List Action :=
  plan.actions.filter (·.isGated)

def missing (plan : Plan) : List Action :=
  Action.catalog.filter fun a => !plan.contains a

def runner? (plan : Plan) (a : Action) : Option Warehouse :=
  a.runner? plan.source

theorem mem_gated {plan : Plan} {a : Action} :
    a ∈ plan.gated ↔ a ∈ plan.actions ∧ a ≠ .compareResults := by
  simp [gated, Action.isGated, Action.isCompare]

end Plan

end TableMigration
