import TableMigration.Text.Lowercase
import TableMigration.Text.Split

/-!
# Stages of a table migration

The catalog of actions in pipeline order, the two warehouses, and which of them each action runs
on and measures.
-/

namespace TableMigration

/-- Where the tables being migrated live: in managed Hive tables, or in object storage. -/
inductive Source
  | hive
  | oss
  deriving DecidableEq, Repr

def Source.name : Source → String
  | .hive => "hive"
  | .oss => "oss"

/-- How scripts are grouped into units: one unit per script, or one per action. -/
inductive Mode
  | single
  | batch
  deriving DecidableEq, Repr

inductive Warehouse
  | source
  | destination
  deriving DecidableEq, Repr

inductive Action
  | createTable
  | addPartition
  | createExternalTable
  | addExternalPartition
  | loadData
  | validateSource
  | validateDest
  | compareResults
  deriving DecidableEq, Repr

namespace Action

def catalog : List Action :=
  [createTable, addPartition, createExternalTable, addExternalPartition, loadData,
   validateSource, validateDest, compareResults]

def rank : Action → Nat
  | createTable => 0
  | addPartition => 1
  | createExternalTable => 2
  | addExternalPartition => 3
  | loadData => 4
  | validateSource => 5
  | validateDest => 6
  | compareResults => 7

def name : Action → String
  | createTable => "create_table"
  | addPartition => "add_partition"
  | createExternalTable => "create_external_table"
  | addExternalPartition => "add_external_partition"
  | loadData => "load_data"
  | validateSource => "validate_source"
  | validateDest => "validate_dest"
  | compareResults => "compare_results"

/-- The compare stage has no units and no ceiling: a verdict on the table decides it. -/
def isCompare (a : Action) : Bool :=
  a == compareResults

def isGated (a : Action) : Bool :=
  !a.isCompare

def ofName? (s : String) : Option Action :=
  catalog.find? (·.name == s)

/-- The action named `s`, blanks around the name and its case left aside. -/
def parse? (s : String) : Option Action :=
  ofName? (Text.lowercase (Text.trim s))

def parseMessage (s : String) : String :=
  "unknown action: " ++ s

def measures? : Action → Option Warehouse
  | validateSource => some .source
  | validateDest => some .destination
  | _ => none

/-- The warehouse that runs the scripts of an action. Data is pushed out of Hive tables and
pulled out of object storage; nothing is run to compare counts. -/
def runner? (source : Source) : Action → Option Warehouse
  | compareResults => none
  | validateSource => some .source
  | loadData =>
    match source with
    | .hive => some .source
    | .oss => some .destination
  | _ => some .destination

def sort (actions : List Action) : List Action :=
  actions.mergeSort fun a b => a.rank ≤ b.rank

theorem mem_catalog (a : Action) : a ∈ catalog := by
  cases a <;> decide

theorem rank_injective {a b : Action} (h : a.rank = b.rank) : a = b := by
  cases a <;> cases b <;> first | rfl | contradiction

end Action

abbrev PerAction (α : Type) := Action → Option α

namespace PerAction

def empty {α : Type} : PerAction α := fun _ => none

def insert {α : Type} (m : PerAction α) (a : Action) (v : α) : PerAction α :=
  fun b => if b = a then some v else m b

def erase {α : Type} (m : PerAction α) (a : Action) : PerAction α :=
  fun b => if b = a then none else m b

def entries {α : Type} (m : PerAction α) : List (Action × α) :=
  Action.catalog.filterMap fun a => (m a).map (a, ·)

end PerAction

end TableMigration
