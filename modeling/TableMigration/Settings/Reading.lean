import TableMigration.Settings
import TableMigration.Toml.Document

/-!
# Reading settings from TOML

Sections and settings that are not given have their standard values, and what is not known is
left aside, though its numbers must have values. A section may also be written as an array of its
settings in order, where nothing is asked of what follows the last of them.
-/

namespace TableMigration

open Toml

/-- The fields of a section in the order of `names`; nothing for what is no section. -/
def fields? (names : List String) : Option Item → Option (List (Option Item))
  | none => some (names.map fun _ => none)
  | some item =>
    match item with
    | .table _ entries | .inlineTable entries =>
      if entriesHaveValues entries then some (names.map fun name => entries.lookup name) else none
    | .array items => some ((List.range names.length).map (items[·]?))
    | .tables elements =>
      some ((List.range names.length).map fun i => elements[i]?.map (.table .header ·))
    | .moment => some (names.map fun _ => none)
    | _ => none

def unsigned? (standard : Nat) : Option Item → Option Nat
  | none => some standard
  | some (.integer (some n)) => if 0 ≤ n ∧ n < UInt64.size then some n.toNat else none
  | some _ => none

def text? (standard : String) : Option Item → Option String
  | none => some standard
  | some (.text s) => some s
  | some _ => none

def boolean? (standard : Bool) : Option Item → Option Bool
  | none => some standard
  | some (.boolean b) => some b
  | some _ => none

def overridesIn? : Entries → Option (PerAction Nat)
  | [] => some .empty
  | (key, item) :: entries => do
    let a ← Action.ofName? key
    let n ← unsigned? 0 (some item)
    let rest ← overridesIn? entries
    return rest.insert a n

def overrides? : Option Item → Option (PerAction Nat)
  | none => some .empty
  | some (.table _ entries) | some (.inlineTable entries) => overridesIn? entries
  | some _ => none

def schedulerSettings? (item : Option Item) : Option SchedulerSettings := do
  let fields ← fields? ["heartbeat_interval_ms", "failover_file", "progress_to_stdout"] item
  let [interval, file, progress] := fields | none
  return ⟨← unsigned? SchedulerSettings.standard.interval interval,
    ← text? SchedulerSettings.standard.failoverFile file,
    ← boolean? SchedulerSettings.standard.showsProgress progress⟩

def concurrencySettings? (item : Option Item) : Option ConcurrencySettings := do
  let fields ← fields? ["default", "actions"] item
  let [standard, actions] := fields | none
  return ⟨← unsigned? ConcurrencySettings.usual.standard standard, ← overrides? actions⟩

def runners? (item : Option Item) : Option Runners := do
  let fields ← fields? ["source", "destination"] item
  let [source, destination] := fields | none
  return ⟨← text? Runners.standard.source source, ← text? Runners.standard.destination destination⟩

def sectionNames : List String := ["scheduler", "concurrency", "runners"]

/-- The settings of a document, or nothing if it is none or a setting has the wrong type. -/
def Settings.read? (text : String) : Option Settings := do
  let top ← Document.read? text
  if !entriesHaveValues (top.filter fun e => !sectionNames.contains e.1) then none
  return ⟨← schedulerSettings? (top.lookup "scheduler"),
    ← concurrencySettings? (top.lookup "concurrency"), ← runners? (top.lookup "runners")⟩

end TableMigration
