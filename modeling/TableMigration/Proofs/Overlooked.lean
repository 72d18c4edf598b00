import TableMigration.Proofs.Acceptance
import TableMigration.Proofs.ScriptRounds

/-!
# What batch mode overlooks

A unit has one count, the one that its last script prints. In batch mode all scripts that validate a table
are one unit in either warehouse, so of their counts the last ones alone are compared; single mode compares
the last ones of each stem, of those stems that are texts. A table that succeeds in batch mode therefore
succeeds in single mode exactly if there are such stems and its counts agree stem by stem; where they do not,
its mismatch goes unnoticed in batch mode.
-/

namespace TableMigration

section
variable {results : String → ScriptResult} {runners : Runners} {plan : Plan} {scripts : Action → List Path}

theorem scriptsPass_batch_iff : ScriptsPass results runners plan .batch scripts ↔
    AllExit results runners plan scripts ∧ ∃ n,
      lastCount? results runners .source (scripts .validateSource) = some n ∧
      lastCount? results runners .destination (scripts .validateDest) = some n := by
  have exit : AllExit results runners plan (fun a => inUnits .batch (scripts a)) ↔
      AllExit results runners plan scripts := by
    simp only [inUnits_batch]
  constructor
  · rintro ⟨exits, counting, agree⟩
    rw [inUnits_batch] at counting
    obtain ⟨script, hs⟩ := List.exists_mem_of_ne_nil _ counting
    have counted := agree script hs batchUnit rfl
    rw [ownScripts_batch, ownScripts_batch] at counted
    exact ⟨exit.mp exits, counted⟩
  · rintro ⟨exits, n, source, dest⟩
    refine ⟨exit.mpr exits, ?_, fun script _ id unit => ⟨n, ?_, ?_⟩⟩
    · rw [inUnits_batch]
      exact List.append_ne_nil_of_left_ne_nil (ne_nil_of_lastCount? source) _
    · cases unit
      rw [ownScripts_batch, source]
    · cases unit
      rw [ownScripts_batch, dest]

theorem scriptsPass_congr {mode : Mode} {scripts' : Action → List Path}
    (source : .validateSource ∈ plan.actions) (dest : .validateDest ∈ plan.actions)
    (same : ∀ a ∈ plan.gated, scripts a = scripts' a) :
    ScriptsPass results runners plan mode scripts ↔ ScriptsPass results runners plan mode scripts' := by
  have exit : AllExit results runners plan (fun a => inUnits mode (scripts a)) ↔
      AllExit results runners plan (fun a => inUnits mode (scripts' a)) :=
    forall₂_congr fun a ha => by simp only [same a ha]
  have onSource := same .validateSource (List.mem_filter.mpr ⟨source, rfl⟩)
  have onDest := same .validateDest (List.mem_filter.mpr ⟨dest, rfl⟩)
  constructor
  · rintro ⟨exits, counting, agree⟩
    exact ⟨exit.mp exits, onSource ▸ onDest ▸ counting, onSource ▸ onDest ▸ agree⟩
  · rintro ⟨exits, counting, agree⟩
    rw [← onSource, ← onDest] at counting agree
    exact ⟨exit.mpr exits, counting, agree⟩

theorem ScriptsPass.single_iff (h : ScriptsPass results runners plan .batch scripts) :
    ScriptsPass results runners plan .single scripts ↔
      inUnits .single (scripts .validateSource ++ scripts .validateDest) ≠ [] ∧
      SameCounts results runners .single (scripts .validateSource) (scripts .validateDest) := by
  refine ⟨fun single => ⟨single.counting, single.agree⟩, fun ⟨counting, agree⟩ => ⟨?_, counting, agree⟩⟩
  intro a ha side ran script hs
  exact (scriptsPass_batch_iff.mp h).1 a ha side ran script (List.mem_of_mem_filter hs)

end

/-! ## Runs that come to their end -/

namespace Scheduler

variable {σ ω : Type} [NameStore σ]

/-- Whenever a run from `start` comes to its end, the table at `i` has succeeded if it is `accepted`, and
else failed. -/
def Decides (ends : ScriptJob → JobResult → Prop) (start : Scheduler σ ScriptRunner CountComparison) (i : Nat)
    (name : String) (accepted : Prop) : Prop :=
  ∀ s s' report, JobRun ends start s → s.tick = (s', .ok report) → report.allFinished = true →
    ∃ t, s'.tasks[i]? = some t ∧ t.name = name ∧
      (accepted ∧ t.progress = .succeeded ∨ ¬accepted ∧ t.progress = .failed)

section
variable {execute : ω → String → ω × ScriptResult} {results : String → ScriptResult}
  (fixed : ∀ world command, (execute world command).2 = results command)
  {plan : Plan} {index : ScriptIndex} {tasks : List Task} (able : Comparable plan index tasks)
  {gate : Gate} {log : FailoverLog σ} {runners : Runners}
include fixed able

theorem evolves_of_run {s : Scheduler σ ScriptRunner CountComparison}
    (run : JobRun (ScriptJob.Ends execute) (ofScripts plan tasks gate log runners index) s) :
    (∀ t ∈ s.tasks, t.WellFormed) ∧ s.tasks.map (·.name) = tasks.map (·.name) := by
  have countable := able.countable gate log runners
  have evolves := ((able.scripted gate log runners results).run countable fixed run).2.evolves countable.wellFormed
  exact ⟨evolves.wellFormed countable.wellFormed, evolves.names_eq.trans (new_names ..)⟩

theorem decides_accepted {i : Nat} {t : Task} (at_i : tasks[i]? = some t) :
    (ofScripts plan tasks gate log runners index).Decides (ScriptJob.Ends execute) i t.name
      (log.isFinished t.name = true ∨ t.Accepted results (.new plan runners index)) := by
  intro s s' report run tick finished
  obtain ⟨wf, names⟩ := evolves_of_run fixed able run
  obtain ⟨refreshed, terminal⟩ := tick_of_allFinished wf tick finished
  obtain ⟨u, at_u, name⟩ := exists_of_map_eq names.symm at_i
  have at_refreshed : s'.tasks[i]? = some u.refresh := by
    rw [refreshed, List.getElem?_map, at_u, Option.map_some]
  have ended := terminal _ (List.mem_of_getElem? at_refreshed)
  refine ⟨u.refresh, at_refreshed, name, ?_⟩
  rw [← succeeded_iff_accepted fixed able run at_i at_u ended]
  cases stored : u.refresh.progress with
  | succeeded => exact Or.inl ⟨rfl, rfl⟩
  | failed => exact Or.inr ⟨nofun, rfl⟩
  | new => rw [Task.isTerminal, stored] at ended; cases ended
  | running => rw [Task.isTerminal, stored] at ended; cases ended

end

end Scheduler

/-! ## Generation in either mode -/

def scriptsOf {φ : Type} [FileSystem φ] (files : φ) (table : TableDirectory) (a : Action) : List Path :=
  (scriptsIn files (table.path.join a.name)).toOption.getD []

namespace ScriptTree

open Scheduler

section
variable {φ : Type} [FileSystem φ] {files : φ} (ordered : ListsInOrder files) {input : Path}
  {mapping : Option TableMapping} {plan : Plan}
  (dotless : ∀ databases, subdirectories files input = .ok databases → ∀ d ∈ databases, '.' ∉ d.1.toList)
  (source : plan.contains .validateSource = true) (dest : plan.contains .validateDest = true)
  (compare : plan.contains .compareResults = true)
include ordered dotless source dest compare

section
variable {tables : List TableScripts} (found : (new files input mapping).layout plan = .ok tables)
include found

theorem comparable_of_layout (mode : Mode) :
    Comparable plan (indexOf mode tables) (tables.map ((new files input mapping).taskIn plan mode)) where
  source := source
  dest := dest
  compare := compare
  supplied := (tasks_supplied (tasks_of_layout found mode)).1
  planned := List.forall_mem_map.mpr fun t _ => by
    simp [taskIn, TableScripts.task, Task.actions, Stage.ofIds, Function.comp_def]
  distinct := by
    rw [List.map_map]
    exact nodup_of_layout ordered found dotless

omit compare in
theorem accepted_iff_scriptsPass (results : String → ScriptResult) (runners : Runners) (mode : Mode)
    {t : TableScripts} (ht : t ∈ tables) :
    ((new files input mapping).taskIn plan mode t).Accepted results (.new plan runners (indexOf mode tables)) ↔
      ScriptsPass results runners plan mode (scriptsOf files t.table) := by
  obtain ⟨-, -, -, -, -, -, each⟩ := layout_eq_ok ordered found
  have listing : ∀ a ∈ plan.gated, scriptsIn files (t.table.path.join a.name) = .ok (t.scripts a) :=
    fun a ha => (each t ht).scriptsIn_eq ha
  have onSource := List.contains_iff_mem.mp source
  have onDest := List.contains_iff_mem.mp dest
  have listed : ∀ a ∈ plan.gated, t.scripts a = scriptsOf files t.table a := fun a ha => by
    rw [scriptsOf, listing a ha]
    rfl
  exact (accepted_iff each ht (nodup_of_layout ordered found dotless) onSource onDest).trans
    (scriptsPass_congr onSource onDest listed)

end

section
variable {σ ω : Type} [NameStore σ] {execute : ω → String → ω × ScriptResult} {results : String → ScriptResult}
  (fixed : ∀ world command, (execute world command).2 = results command) {gate : Gate} {log : FailoverLog σ}
  {runners : Runners}
include fixed

section
variable {tables : List TableScripts} (found : (new files input mapping).layout plan = .ok tables) {mode : Mode}
  {i : Nat}
include found

theorem scriptsPass_of_succeeded {s : Scheduler σ ScriptRunner CountComparison}
    (run : JobRun (ScriptJob.Ends execute) (ofScripts plan (tables.map ((new files input mapping).taskIn plan mode))
      gate log runners (indexOf mode tables)) s) {t : Task} (at_i : s.tasks[i]? = some t)
    (succeeded : t.progress = .succeeded) : ∃ table, tables[i]? = some table ∧ t.name = table.table.name ∧
      (log.isFinished t.name = false →
        ScriptsPass results runners plan mode (scriptsOf files table.table)) := by
  have able := comparable_of_layout ordered dotless source dest compare found mode
  obtain ⟨_, made, name⟩ := exists_of_map_eq (evolves_of_run fixed able run).2 at_i
  obtain ⟨table, at_table, rfl⟩ := Option.map_eq_some_iff.mp (List.getElem?_map.symm.trans made)
  refine ⟨table, at_table, name.symm, fun unresumed => ?_⟩
  rw [← accepted_iff_scriptsPass ordered dotless source dest found results runners mode
    (List.mem_of_getElem? at_table)]
  exact accepted_of_succeeded fixed able run made at_i (name ▸ unresumed) succeeded

theorem decides_scriptsPass {table : TableScripts} (at_i : tables[i]? = some table) :
    (ofScripts plan (tables.map ((new files input mapping).taskIn plan mode)) gate log runners
      (indexOf mode tables)).Decides (ScriptJob.Ends execute) i table.table.name
      (log.isFinished table.table.name = true ∨
        ScriptsPass results runners plan mode (scriptsOf files table.table)) := by
  have able := comparable_of_layout ordered dotless source dest compare found mode
  have made : (tables.map ((new files input mapping).taskIn plan mode))[i]? =
      some ((new files input mapping).taskIn plan mode table) := by
    rw [List.getElem?_map, at_i, Option.map_some]
  rw [← accepted_iff_scriptsPass ordered dotless source dest found results runners mode
    (List.mem_of_getElem? at_i)]
  exact decides_accepted fixed able made

end

/-- What a run in batch mode that leaves a table succeeded tells of single mode. Unless the table was
resumed, all its scripts exit with status zero and the last ones that validate it count the same in both
warehouses. Runs in single mode come to an end, and then the table has succeeded if it was resumed or some
script that validates it has a text as its stem and the last scripts of each such stem count the same in both
warehouses, and else it has failed. -/
theorem single_after_batch {batch : ScriptTree φ × List Task}
    (inBatch : (new files input mapping).tasks plan .batch = .ok batch)
    {s : Scheduler σ ScriptRunner CountComparison}
    (run : JobRun (ScriptJob.Ends execute) (ofScripts plan batch.2 gate log runners batch.1.index) s)
    {i : Nat} {t : Task} (at_i : s.tasks[i]? = some t) (succeeded : t.progress = .succeeded) :
    ∃ names single, (new files input mapping).tasks plan .single = .ok single ∧
      '.' ∉ names.1.toList ∧ t.name = (tableAt input names).name ∧
      (log.isFinished t.name = false →
        AllExit results runners plan (scriptsOf files (tableAt input names)) ∧ ∃ n,
          lastCount? results runners .source (scriptsOf files (tableAt input names) .validateSource) = some n ∧
          lastCount? results runners .destination (scriptsOf files (tableAt input names) .validateDest) = some n) ∧
      ∀ gate', (ofScripts plan single.2 gate' log runners single.1.index).Decides (ScriptJob.Ends execute) i t.name
        (log.isFinished t.name = true ∨
          inUnits .single (scriptsOf files (tableAt input names) .validateSource ++
            scriptsOf files (tableAt input names) .validateDest) ≠ [] ∧
          SameCounts results runners .single (scriptsOf files (tableAt input names) .validateSource)
            (scriptsOf files (tableAt input names) .validateDest)) ∧
      ((∀ a ∈ plan.gated, ∃ c, gate'.ceiling a = some c ∧ 1 ≤ c) → ∀ worlds, ∃ n,
        (rounds execute worlds (ofScripts plan single.2 gate' log runners single.1.index) n).Finishes) := by
  cases found : (new files input mapping).layout plan with
  | error e => rw [tasks_eq, found] at inBatch; cases inBatch
  | ok tables =>
    obtain rfl := Except.ok.inj ((tasks_of_layout found .batch).symm.trans inBatch)
    obtain ⟨table, at_table, name, passed⟩ :=
      scriptsPass_of_succeeded ordered dotless source dest compare fixed found run at_i succeeded
    obtain ⟨pairs, -, -, ⟨databases, read, among⟩, at_pairs, -, -⟩ := layout_eq_ok ordered found
    obtain ⟨names, listed, place⟩ : ∃ names ∈ pairs, tableAt input names = table.table :=
      List.mem_map.mp (at_pairs ▸ List.mem_map_of_mem (List.mem_of_getElem? at_table))
    obtain ⟨d, hd, database⟩ := List.mem_map.mp (among names listed)
    refine ⟨names, _, tasks_of_layout found .single, database ▸ dotless databases read d hd, ?_⟩
    rw [place]
    refine ⟨name, fun unresumed => scriptsPass_batch_iff.mp (passed unresumed), fun gate' =>
      ⟨?_, fun ceilings worlds => ?_⟩⟩
    -- the batch run has left nothing open but the counts
    · have agree : log.isFinished t.name = true ∨
            ScriptsPass results runners plan .single (scriptsOf files table.table) ↔
          log.isFinished t.name = true ∨
          inUnits .single (scriptsOf files table.table .validateSource ++
            scriptsOf files table.table .validateDest) ≠ [] ∧
          SameCounts results runners .single (scriptsOf files table.table .validateSource)
            (scriptsOf files table.table .validateDest) := by
        cases resumed : log.isFinished t.name with
        | true => exact iff_of_true (Or.inl rfl) (Or.inl rfl)
        | false => exact or_congr_right (passed resumed).single_iff
      rw [← agree, name]
      exact decides_scriptsPass ordered dotless source dest compare fixed found at_table
    · exact rounds_finish fixed (comparable_of_layout ordered dotless source dest compare found .single) log
        runners worlds ceilings

end

end

end ScriptTree

/-! ## A mismatch in the first of two partitions -/

namespace TwoPartitions

def tree : Tree :=
  (((Tree.empty.addFile ⟨"in/db/t/validate_source/a.q"⟩ "".toUTF8).addFile ⟨"in/db/t/validate_source/b.q"⟩
    "".toUTF8).addFile ⟨"in/db/t/validate_dest/a.q"⟩ "".toUTF8).addFile ⟨"in/db/t/validate_dest/b.q"⟩ "".toUTF8

theorem ordered : ListsInOrder tree :=
  Tree.InOrder.lists ((((Tree.inOrder_empty.addFile _ _).addFile _ _).addFile _ _).addFile _ _)

def first : ScriptTree Tree := .new tree ⟨"in"⟩ none

/-- All partitions have seven rows, but for the first one in the destination. -/
def results (command : String) : ScriptResult :=
  .exited 0 (if command = "sh 'in/db/t/validate_dest/a.q'" then "8\n" else "7\n").toUTF8

def made (mode : Mode) : ScriptTree Tree × List Task :=
  (first.tasks (.standard .hive) mode).toOption.getD (first, [])

def start (mode : Mode) : Scheduler MemoryStore ScriptRunner CountComparison :=
  .ofScripts (.standard .hive) (made mode).2 (.uniform (.standard .hive) 2) (.openOn ⟨[]⟩) ⟨"sh", "sh"⟩
    (made mode).1.index

def finished (mode : Mode) : Scheduler MemoryStore ScriptRunner CountComparison :=
  Scheduler.rounds (constantly results) (fun _ => ()) (start mode) 3

theorem generated (mode : Mode) : first.tasks (.standard .hive) mode = .ok (made mode) := by
  have calm : (first.tasks (.standard .hive) mode).toOption.isSome = true := by
    cases mode <;> decide +kernel
  unfold made
  generalize first.tasks (.standard .hive) mode = out at calm ⊢
  cases out with
  | ok tasks => rfl
  | error e => cases calm

def outcome (mode : Mode) : Option Bool × List (String × Progress) :=
  ((finished mode).tick.2.toOption.map (·.allFinished),
    (finished mode).tick.1.tasks.map fun t => (t.name, t.progress))

theorem outcomes : outcome .batch = (some true, [("db.t", .succeeded)]) ∧
    outcome .single = (some true, [("db.t", .failed)]) :=
  ⟨by decide +kernel, by decide +kernel⟩

/-- Both loops come to their end after three rounds, but the table has succeeded in batch mode alone. -/
theorem mismatch_unnoticed :
    (∀ mode, first.tasks (.standard .hive) mode = .ok (made mode) ∧
      Scheduler.JobRun (ScriptJob.Ends (constantly results)) (start mode) (finished mode) ∧
      (finished mode).tick.2.toOption.map (·.allFinished) = some true) ∧
    (finished .batch).tick.1.tasks.map (fun t => (t.name, t.progress)) = [("db.t", .succeeded)] ∧
    (finished .single).tick.1.tasks.map (fun t => (t.name, t.progress)) = [("db.t", .failed)] := by
  obtain ⟨batchEnds, batchTables⟩ := Prod.mk.inj outcomes.1
  obtain ⟨singleEnds, singleTables⟩ := Prod.mk.inj outcomes.2
  refine ⟨fun mode => ⟨generated mode, Scheduler.rounds_run .., ?_⟩, batchTables, singleTables⟩
  cases mode with
  | batch => exact batchEnds
  | single => exact singleEnds

theorem dotless : ∀ databases, subdirectories tree ⟨"in"⟩ = .ok databases →
    ∀ d ∈ databases, '.' ∉ d.1.toList := by
  have read : (subdirectories tree ⟨"in"⟩).toOption = some [("db", ⟨"in/db"⟩)] := by decide +kernel
  intro databases listed d hd
  obtain rfl : databases = [("db", ⟨"in/db"⟩)] :=
    Option.some.inj ((congrArg Except.toOption listed).symm.trans read)
  obtain rfl := List.mem_singleton.mp hd
  decide

theorem counts_differ : ¬SameCounts results ⟨"sh", "sh"⟩ .single
    (scriptsOf tree (tableAt ⟨"in"⟩ ("db", "t")) .validateSource)
    (scriptsOf tree (tableAt ⟨"in"⟩ ("db", "t")) .validateDest) := by
  have source : scriptsOf tree (tableAt ⟨"in"⟩ ("db", "t")) .validateSource =
      [⟨"in/db/t/validate_source/a.q"⟩, ⟨"in/db/t/validate_source/b.q"⟩] := by decide +kernel
  have dest : scriptsOf tree (tableAt ⟨"in"⟩ ("db", "t")) .validateDest =
      [⟨"in/db/t/validate_dest/a.q"⟩, ⟨"in/db/t/validate_dest/b.q"⟩] := by decide +kernel
  rw [source, dest]
  intro same
  obtain ⟨n, seven, eight⟩ := same ⟨"in/db/t/validate_source/a.q"⟩ (List.mem_cons_self ..) "a" (by decide +kernel)
  have apart : lastCount? results ⟨"sh", "sh"⟩ .source (ownScripts .single
      [⟨"in/db/t/validate_source/a.q"⟩, ⟨"in/db/t/validate_source/b.q"⟩] "a") ≠
    lastCount? results ⟨"sh", "sh"⟩ .destination (ownScripts .single
      [⟨"in/db/t/validate_dest/a.q"⟩, ⟨"in/db/t/validate_dest/b.q"⟩] "a") := by decide +kernel
  exact apart (seven.trans eight.symm)

theorem always_noticed : (∃ t, (finished .batch).tick.1.tasks[0]? = some t ∧ t.progress = .succeeded) ∧
    ∀ gate, (Scheduler.ofScripts (.standard .hive) (made .single).2 gate (.openOn (⟨[]⟩ : MemoryStore))
      ⟨"sh", "sh"⟩ (made .single).1.index).Decides (ScriptJob.Ends (constantly results)) 0 "db.t" False := by
  have run : Scheduler.JobRun (ScriptJob.Ends (constantly results)) (start .batch) (finished .batch).tick.1 :=
    (Scheduler.rounds_run ..).tail (.call .tick)
  have tables := congrArg (·[0]?) (Prod.mk.inj outcomes.1).2
  simp only [List.getElem?_map] at tables
  obtain ⟨t, at_t, stored⟩ := Option.map_eq_some_iff.mp tables
  obtain ⟨name, succeeded⟩ := Prod.mk.inj stored
  obtain ⟨names, single, inSingle, plain, named, -, decided⟩ := ScriptTree.single_after_batch ordered dotless
    rfl rfl rfl (constantly_fixed results) (generated .batch) run at_t succeeded
  obtain rfl := Except.ok.inj ((generated .single).symm.trans inSingle)
  have same : (tableAt ⟨"in"⟩ names).name = (tableAt ⟨"in"⟩ ("db", "t")).name :=
    named.symm.trans (name.trans (by decide))
  obtain rfl := eq_of_dotless plain (by decide) same
  refine ⟨⟨t, at_t, succeeded⟩, fun gate => ?_⟩
  have new : (FailoverLog.openOn (⟨[]⟩ : MemoryStore)).isFinished "db.t" = false := rfl
  have decides := (decided gate).1
  rw [name, new, eq_false counts_differ] at decides
  simpa only [Bool.false_eq_true, and_false, or_self] using decides

end TwoPartitions

end TableMigration
