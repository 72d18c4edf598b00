import TableMigration.Proofs.Modes
import TableMigration.Proofs.Scripted

/-!
# What a table needs to succeed

A table succeeds in the end exactly if all its units succeed and its rows agree. What that asks of the
scripts depends on the mode only through the units they are in. In either mode every script that is in a
unit has to exit with status zero; but a unit counts what its last script prints, so that the counts
compared are one for each stem in single mode, and one for all scripts together in batch mode.
-/

namespace TableMigration

/-! ## Tables that are accepted -/

structure Task.Accepted (results : String → ScriptResult) (d : ScriptRunner) (t : Task) : Prop where
  units : ∀ s ∈ t.stages, ∀ id ∈ s.ids, (d.result results ⟨t.name, s.action, id⟩).outcome = .succeeded
  rows : RowsAgree results d t

theorem Task.spared_iff_accepted {results : String → ScriptResult} {d : ScriptRunner} {ts : List Task}
    {i : Nat} {t : Task} (at_i : ts[i]? = some t) (compare : .compareResults ∈ t.actions) :
    (∀ p ∈ t.shape, (scriptFate results d ts).fails i p = false) ↔ t.Accepted results d := by
  have outcome : ∀ a id,
      (scriptFate results d ts).outcome i a id = (d.result results ⟨t.name, a, id⟩).outcome := by
    intro a id
    simp [scriptFate, at_i]
  have verdict : (scriptFate results d ts).verdict i = true ↔ RowsAgree results d t := by
    rw [scriptFate_verdict, at_i]
    constructor
    · rintro ⟨_, same, agree⟩
      exact Option.some.inj same ▸ agree
    · exact fun agree => ⟨t, rfl, agree⟩
  have fails : ∀ p : Action × List String, (scriptFate results d ts).fails i p = false ↔
      (∀ id ∈ p.2, (d.result results ⟨t.name, p.1, id⟩).outcome = .succeeded) ∧
      (p.1.isCompare = true → RowsAgree results d t) := by
    intro p
    have either : ∀ o : Outcome, ¬(o == .failed) = true ↔ o = .succeeded := by
      rintro (_ | _) <;> decide
    simp only [Fate.fails, Bool.or_eq_false_iff, List.any_eq_false, outcome, either, ← verdict]
    cases p.1.isCompare <;> simp
  simp only [fails, shape, List.forall_mem_map]
  constructor
  · intro spared
    obtain ⟨b, hb, action⟩ := List.mem_map.mp compare
    exact ⟨fun s hs => (spared s hs).1, (spared b hb).2 (by rw [action]; rfl)⟩
  · exact fun accepted s hs => ⟨accepted.units s hs, fun _ => accepted.rows⟩

namespace Scheduler

section
variable {σ ω : Type} [NameStore σ] {execute : ω → String → ω × ScriptResult}
  {results : String → ScriptResult} (fixed : ∀ world command, (execute world command).2 = results command)
  {plan : Plan} {index : ScriptIndex} {tasks : List Task} (able : Comparable plan index tasks)
  {gate : Gate} {log : FailoverLog σ} {runners : Runners} {s : Scheduler σ ScriptRunner CountComparison}
  (run : JobRun (ScriptJob.Ends execute) (ofScripts plan tasks gate log runners index) s)
  {i : Nat} {t t' : Task} (at_i : tasks[i]? = some t) (at_s : s.tasks[i]? = some t')
include fixed able run at_i at_s

/-- Since the run began, the table has moved as the scripts decide. -/
theorem moves_of_run : ∃ t₀, t₀ = (if log.isFinished t.name then t.assumeSucceeded else t) ∧
    (ofScripts plan tasks gate log runners index).tasks[i]? = some t₀ ∧ t₀.WellFormed ∧
    t₀.Moves (scriptFate results (.new plan runners index)
      (ofScripts plan tasks gate log runners index).tasks).conduct i t' := by
  have countable := able.countable gate log runners
  have reached := ((able.scripted gate log runners results).run countable fixed run).2
  obtain ⟨t₀, at_t₀, moves⟩ := (reached.evolves countable.wellFormed).origin at_s
  rw [Nat.zero_add] at moves
  refine ⟨t₀, ?_, at_t₀, countable.wellFormed t₀ (List.mem_of_getElem? at_t₀), moves⟩
  have made : (tasks.map fun t => if log.isFinished t.name then t.assumeSucceeded else t)[i]? = some t₀ :=
    at_t₀
  rw [List.getElem?_map, at_i] at made
  exact (Option.some.inj made).symm

theorem accepted_of_succeeded (unresumed : log.isFinished t.name = false)
    (succeeded : t'.progress = .succeeded) : t.Accepted results (.new plan runners index) := by
  obtain ⟨_, rfl, made, -, moves⟩ := moves_of_run fixed able run at_i at_s
  rw [unresumed, if_neg (by decide)] at made moves
  have ht := List.mem_of_getElem? at_i
  have new := (able.supplied t ht).1
  have wf := moves.wellFormed new.wellFormed
  have done := (moves.advances new.wellFormed new.lags).2.done wf succeeded
  have governed := moves.keeps_stages new.wellFormed (fun _ h => h.refresh)
    (fun wf ch h => h.change wf.nodup ch) (new.governs _ i)
  rw [← Task.spared_iff_accepted made (able.compares ht), ← moves.shape_eq new.wellFormed]
  exact List.forall_mem_map.mpr fun b hb => (governed b hb).of_done (wf.stages b hb) (done b hb)

theorem succeeded_iff_accepted (ended : t'.Ended) : t'.refresh.progress = .succeeded ↔
    log.isFinished t.name = true ∨ t.Accepted results (.new plan runners index) := by
  have ht := List.mem_of_getElem? at_i
  have new := (able.supplied t ht).1
  obtain ⟨_, rfl, made, wf₀, moves⟩ := moves_of_run fixed able run at_i at_s
  by_cases resumed : log.isFinished t.name = true
  -- a resumed table is done from the start, and stays so
  · rw [if_pos resumed] at wf₀ moves
    have wf := moves.wellFormed wf₀
    exact iff_of_true ((Task.progress_refresh_eq_succeeded_iff wf.nonempty).mpr
      (moves.done wf₀ t.done_assumeSucceeded)) (Or.inl resumed)
  · rw [if_neg resumed] at made moves
    have wf := moves.wellFormed new.wellFormed
    have governed := moves.keeps_stages new.wellFormed (fun _ h => h.refresh)
      (fun wf ch h => h.change wf.nodup ch) (new.governs _ i)
    have decided := (Task.decided_of_terminal wf (moves.inOrder new.wellFormed new.inOrder) governed ended).task
    rw [decided, Task.shape_refresh, moves.shape_eq new.wellFormed,
      ← Task.spared_iff_accepted made (able.compares ht)]
    simp [resumed]

end

end Scheduler

/-! ## Scripts of a unit -/

def Exits (results : String → ScriptResult) (runners : Runners) (side : Warehouse) (script : Path) : Prop :=
  ∃ output, results (runners.commandLine side script) = .exited 0 output

def lastCount? (results : String → ScriptResult) (runners : Runners) (side : Warehouse)
    (scripts : List Path) : Option Nat :=
  scripts.getLast?.bind fun script =>
    match results (runners.commandLine side script) with
    | .exited 0 output => (readRowCount (Text.decodeLossy output)).toOption
    | _ => none

theorem constantly_fixed (results : String → ScriptResult) :
    ∀ world command, (constantly results world command).2 = results command :=
  fun _ _ => rfl

theorem runCommands_ne_none_iff {results : String → ScriptResult} {printed : String} {commands : List String} :
    (runCommands (constantly results) () printed commands).2 ≠ none ↔
      ∀ command ∈ commands, ∃ output, results command = .exited 0 output := by
  induction commands generalizing printed with
  | nil => simp [runCommands]
  | cons command rest ih =>
    rw [runCommands_cons, List.forall_mem_cons, constantly]
    cases ran : results command with
    | exited status output =>
      cases status with
      | zero => simpa using ih
      | succ _ => simp
    | notStarted => simp
    | killed => simp

section
variable {results : String → ScriptResult} {d : ScriptRunner} {u : UnitKey} {runners : Runners}
  {side : Warehouse} {scripts : List Path}
  (prepared : d.commands? u = some (scripts.map (runners.commandLine side)))

theorem lastCount?_eq {text : String} (printed : (runCommands (constantly results) () ""
    (scripts.map (runners.commandLine side))).2 = some text) :
    lastCount? results runners side scripts = (readRowCount text).toOption := by
  unfold lastCount?
  obtain ⟨none, rfl⟩ | ⟨command, output, last, ran, rfl⟩ := runCommands_eq_some (constantly_fixed results) printed
  · rw [List.map_eq_nil_iff.mp none]
    rfl
  · rw [List.getLast?_map] at last
    obtain ⟨script, at_last, rfl⟩ := Option.map_eq_some_iff.mp last
    rw [at_last, Option.bind_some, ran]
    rfl

include prepared

theorem ScriptRunner.counts_iff {n : Nat} :
    d.Counts results u n ↔ lastCount? results runners side scripts = some n := by
  unfold lastCount?
  constructor
  · rintro ⟨_, command, output, found, last, ran, read⟩
    obtain rfl := Option.some.inj (prepared.symm.trans found)
    rw [List.getLast?_map] at last
    obtain ⟨script, at_last, rfl⟩ := Option.map_eq_some_iff.mp last
    rw [at_last, Option.bind_some, ran]
    exact congrArg Except.toOption read
  · intro counted
    obtain ⟨script, at_last, counted⟩ := Option.bind_eq_some_iff.mp counted
    split at counted
    next output ran =>
      refine ⟨_, _, output, prepared, by rw [List.getLast?_map, at_last, Option.map_some], ran, ?_⟩
      cases read : readRowCount (Text.decodeLossy output) with
      | error e => rw [read] at counted; cases counted
      | ok m => rw [read] at counted; exact congrArg Except.ok (Option.some.inj counted)
    next => cases counted

theorem ScriptRunner.succeeds_iff : (d.result results u).outcome = .succeeded ↔
    (∀ script ∈ scripts, Exits results runners side script) ∧
      (u.action.measures? ≠ none → lastCount? results runners side scripts ≠ none) := by
  have exits : (∀ script ∈ scripts, Exits results runners side script) ↔ (runCommands (constantly results) ()
      "" (scripts.map (runners.commandLine side))).2 ≠ none := by
    rw [runCommands_ne_none_iff, List.forall_mem_map]
    rfl
  simp only [exits, result, prepared]
  cases printed : (runCommands (constantly results) () "" (scripts.map (runners.commandLine side))).2 with
  | none => simp [JobResult.of]
  | some text =>
    rw [lastCount?_eq printed]
    unfold JobResult.of
    cases u.action.measures? with
    | none => simp
    | some side => cases read : readRowCount text <;> simp [read, Except.toOption]

end

/-! ## What each mode asks of the scripts -/

def inUnits (mode : Mode) (scripts : List Path) : List Path :=
  scripts.filter fun script => (unitOf? mode script).isSome

/-- The last scripts of each unit count the same rows in both warehouses. -/
def SameCounts (results : String → ScriptResult) (runners : Runners) (mode : Mode)
    (source dest : List Path) : Prop :=
  ∀ script ∈ source ++ dest, ∀ id, unitOf? mode script = some id → ∃ n,
    lastCount? results runners .source (ownScripts mode source id) = some n ∧
    lastCount? results runners .destination (ownScripts mode dest id) = some n

def AllExit (results : String → ScriptResult) (runners : Runners) (plan : Plan)
    (scripts : Action → List Path) : Prop :=
  ∀ a ∈ plan.gated, ∀ side, plan.runner? a = some side → ∀ script ∈ scripts a, Exits results runners side script

/-- What a mode asks of the scripts of a table. -/
structure ScriptsPass (results : String → ScriptResult) (runners : Runners) (plan : Plan) (mode : Mode)
    (scripts : Action → List Path) : Prop where
  exit : AllExit results runners plan fun a => inUnits mode (scripts a)
  counting : inUnits mode (scripts .validateSource ++ scripts .validateDest) ≠ []
  agree : SameCounts results runners mode (scripts .validateSource) (scripts .validateDest)

theorem mem_inUnits {mode : Mode} {script : Path} {scripts : List Path} :
    script ∈ inUnits mode scripts ↔ script ∈ scripts ∧ ∃ id, unitOf? mode script = some id := by
  rw [inUnits, List.mem_filter, Option.isSome_iff_exists]

theorem inUnits_batch (scripts : List Path) : inUnits .batch scripts = scripts := by
  simp [inUnits, unitOf?]

theorem ownScripts_batch (scripts : List Path) : ownScripts .batch scripts batchUnit = scripts := by
  simp [ownScripts, unitOf?]

theorem ne_nil_of_lastCount? {results : String → ScriptResult} {runners : Runners} {side : Warehouse}
    {scripts : List Path} {n : Nat} (h : lastCount? results runners side scripts = some n) : scripts ≠ [] := by
  rintro rfl
  cases h

namespace TableScripts

variable {t : TableScripts} {mode : Mode} {a : Action}

theorem ids_stage (t : TableScripts) (mode : Mode) (a : Action) :
    (Stage.ofIds a ((t.units mode a).map (·.1))).ids = (t.units mode a).map (·.1) := by
  have keys : Ordered.ofKeys ((t.units mode a).map (·.1)) = (t.units mode a).map (·.1) :=
    Ordered.ofKeys_of_pairwise (groupScripts_ascending mode _)
  simp only [Stage.ids, Stage.ofIds, keys, List.map_map, Function.comp_def]

theorem mem_ids {id : String} :
    id ∈ (t.units mode a).map (·.1) ↔ ownScripts mode (t.scripts a) id ≠ [] := by
  rw [List.mem_map]
  constructor
  · rintro ⟨⟨_, own⟩, hu, rfl⟩
    obtain ⟨rfl, filled⟩ := mem_groupScripts.mp hu
    exact filled
  · exact fun filled => ⟨(id, _), mem_groupScripts.mpr ⟨rfl, filled⟩, rfl⟩

theorem mem_ids_of_script {script : Path} (hs : script ∈ t.scripts a) {id : String}
    (unit : unitOf? mode script = some id) : id ∈ (t.units mode a).map (·.1) :=
  mem_ids.mpr (List.ne_nil_of_mem (List.mem_filter.mpr ⟨hs, decide_eq_true unit⟩))

theorem exists_script_of_mem_ids {id : String} (h : id ∈ (t.units mode a).map (·.1)) :
    ∃ script ∈ t.scripts a, unitOf? mode script = some id := by
  obtain ⟨script, hs⟩ := List.exists_mem_of_ne_nil _ (mem_ids.mp h)
  obtain ⟨hs, unit⟩ := List.mem_filter.mp hs
  exact ⟨script, hs, of_decide_eq_true unit⟩

theorem forall_units_iff {P : Path → Prop} :
    (∀ u ∈ t.units mode a, ∀ script ∈ u.2, P script) ↔ ∀ script ∈ inUnits mode (t.scripts a), P script := by
  constructor
  · intro each script hs
    obtain ⟨hs, id, unit⟩ := mem_inUnits.mp hs
    have own : script ∈ ownScripts mode (t.scripts a) id := List.mem_filter.mpr ⟨hs, decide_eq_true unit⟩
    exact each _ (mem_groupScripts.mpr ⟨rfl, List.ne_nil_of_mem own⟩) script own
  · rintro all ⟨id, own⟩ hu script hs
    rw [(mem_groupScripts.mp hu).1] at hs
    obtain ⟨hs, unit⟩ := List.mem_filter.mp hs
    exact all script (mem_inUnits.mpr ⟨hs, id, of_decide_eq_true unit⟩)

theorem sameCounts_iff {results : String → ScriptResult} {runners : Runners} {b : Action} :
    (t.units mode a).map (·.1) ≠ [] ∧ (t.units mode b).map (·.1) = (t.units mode a).map (·.1) ∧
      (∀ id ∈ (t.units mode a).map (·.1), ∃ n,
        lastCount? results runners .source (ownScripts mode (t.scripts a) id) = some n ∧
        lastCount? results runners .destination (ownScripts mode (t.scripts b) id) = some n) ↔
    inUnits mode (t.scripts a ++ t.scripts b) ≠ [] ∧
      SameCounts results runners mode (t.scripts a) (t.scripts b) := by
  constructor
  · rintro ⟨filled, same, each⟩
    constructor
    · obtain ⟨id, hid⟩ := List.exists_mem_of_ne_nil _ filled
      obtain ⟨script, hs, unit⟩ := exists_script_of_mem_ids hid
      exact List.ne_nil_of_mem (mem_inUnits.mpr ⟨List.mem_append_left _ hs, id, unit⟩)
    · intro script hs id unit
      refine each id ((List.mem_append.mp hs).elim (mem_ids_of_script · unit) fun hs => ?_)
      exact same ▸ mem_ids_of_script hs unit
  · rintro ⟨filled, each⟩
    -- a unit of either warehouse has a script, and its unit in the other warehouse counts too
    have both : ∀ id, id ∈ (t.units mode a).map (·.1) ∨ id ∈ (t.units mode b).map (·.1) →
        id ∈ (t.units mode a).map (·.1) ∧ id ∈ (t.units mode b).map (·.1) ∧ ∃ n,
          lastCount? results runners .source (ownScripts mode (t.scripts a) id) = some n ∧
          lastCount? results runners .destination (ownScripts mode (t.scripts b) id) = some n := by
      intro id hid
      obtain ⟨script, hs, unit⟩ : ∃ script ∈ t.scripts a ++ t.scripts b, unitOf? mode script = some id := by
        obtain hid | hid := hid
        · obtain ⟨script, hs, unit⟩ := exists_script_of_mem_ids hid
          exact ⟨script, List.mem_append_left _ hs, unit⟩
        · obtain ⟨script, hs, unit⟩ := exists_script_of_mem_ids hid
          exact ⟨script, List.mem_append_right _ hs, unit⟩
      obtain ⟨n, source, dest⟩ := each script hs id unit
      exact ⟨mem_ids.mpr (ne_nil_of_lastCount? source), mem_ids.mpr (ne_nil_of_lastCount? dest), n, source, dest⟩
    obtain ⟨script, hs⟩ := List.exists_mem_of_ne_nil _ filled
    obtain ⟨hs, id, unit⟩ := mem_inUnits.mp hs
    have known := (List.mem_append.mp hs).imp (mem_ids_of_script · unit) (mem_ids_of_script · unit)
    refine ⟨List.ne_nil_of_mem (both id known).1, ?_, fun id hid => (both id (Or.inl hid)).2.2⟩
    exact List.Subset.antisymm_of_pairwise (groupScripts_ascending mode _) (groupScripts_ascending mode _)
      (fun id hid => (both id (Or.inr hid)).1) fun id hid => (both id (Or.inl hid)).2.1

end TableScripts

namespace ScriptTree

section
variable {φ : Type} [FileSystem φ] {f : ScriptTree φ} {plan : Plan} {tables : List TableScripts}
  {t : TableScripts} {mode : Mode} {runners : Runners} {results : String → ScriptResult}
  (found : ∀ t ∈ tables, t.FoundIn f.files plan) (ht : t ∈ tables)
include found ht

theorem gated_of_mem_units {a : Action} {u : String × List Path} (hu : u ∈ t.units mode a) :
    a ∈ plan.gated := by
  rw [← (found t ht).gated, List.mem_map]
  cases read : t.byAction.lookup a with
  | none => simp [TableScripts.units, TableScripts.scripts, read, groupScripts] at hu
  | some scripts =>
    obtain ⟨before, after, split, -⟩ := List.lookup_eq_some_iff.mp read
    exact ⟨(a, scripts), by rw [split]; simp, rfl⟩

variable (unique : (tables.map (·.table.name)).Nodup)
include unique

theorem commands?_of_layout {a : Action} {side : Warehouse} (ran : plan.runner? a = some side) {id : String}
    {own : List Path} (hu : (id, own) ∈ t.units mode a) :
    (ScriptRunner.new plan runners (indexOf mode tables)).commands? ⟨t.table.name, a, id⟩ =
      some (own.map (runners.commandLine side)) := by
  have nodup : ((t.units mode a).map (·.1)).Nodup := (groupScripts_ascending mode _).imp String.ne_of_lt
  have listed : (indexOf mode tables).scripts? ⟨t.table.name, a, id⟩ = some own :=
    (scripts?_of_layout found unique ht a id).trans ((Ordered.find?_eq_some_iff nodup).mpr hu)
  show ((plan.runner? a).bind fun side => ((indexOf mode tables).scripts? _).map _) = _
  rw [ran, Option.bind_some, listed, Option.map_some]
  rfl

theorem units_succeed_iff : (∀ s ∈ (f.taskIn plan mode t).stages, ∀ id ∈ s.ids,
      ((ScriptRunner.new plan runners (indexOf mode tables)).result results
        ⟨t.table.name, s.action, id⟩).outcome = .succeeded) ↔
    ∀ a ∈ plan.gated, ∀ side, plan.runner? a = some side → ∀ u ∈ t.units mode a,
      (∀ script ∈ u.2, Exits results runners side script) ∧
      (a.measures? ≠ none → lastCount? results runners side u.2 ≠ none) := by
  simp only [taskIn, TableScripts.task, List.forall_mem_map, t.ids_stage mode]
  constructor
  · intro succeed a ha side ran u hu
    exact (ScriptRunner.succeeds_iff (commands?_of_layout found ht unique ran hu)).mp
      (succeed a (List.mem_of_mem_filter ha) u hu)
  · intro each a ha u hu
    have gated := gated_of_mem_units found ht hu
    have runs : a.isCompare = false := by simpa [Action.isGated] using (List.mem_filter.mp gated).2
    obtain ⟨side, ran⟩ := Action.exists_runner runs plan.source
    exact (ScriptRunner.succeeds_iff (commands?_of_layout found ht unique ran hu)).mpr
      (each a gated side ran u hu)

theorem counts_iff {a : Action} {side : Warehouse} (ran : plan.runner? a = some side) {id : String} {n : Nat} :
    (ScriptRunner.new plan runners (indexOf mode tables)).Counts results ⟨t.table.name, a, id⟩ n ↔
      lastCount? results runners side (ownScripts mode (t.scripts a) id) = some n := by
  by_cases own : ownScripts mode (t.scripts a) id = []
  · refine iff_of_false ?_ (by rw [own]; nofun)
    rintro ⟨commands, -, -, prepared, -⟩
    obtain ⟨_, -, prepared⟩ := Option.bind_eq_some_iff.mp prepared
    obtain ⟨scripts, listed, -⟩ := Option.map_eq_some_iff.mp prepared
    have none := (scripts?_of_layout found unique ht a id).trans (find?_groupScripts mode _ id)
    rw [if_pos own] at none
    cases none.symm.trans listed
  · exact ScriptRunner.counts_iff (commands?_of_layout found ht unique ran (mem_groupScripts.mpr ⟨rfl, own⟩))

theorem rowsAgree_iff (source : .validateSource ∈ plan.actions) (dest : .validateDest ∈ plan.actions) :
    RowsAgree results (.new plan runners (indexOf mode tables)) (f.taskIn plan mode t) ↔
      inUnits mode (t.scripts .validateSource ++ t.scripts .validateDest) ≠ [] ∧
      SameCounts results runners mode (t.scripts .validateSource) (t.scripts .validateDest) := by
  have ids : ∀ a ∈ plan.actions, ((f.taskIn plan mode t).stage? a).map (·.ids) =
      some ((t.units mode a).map (·.1)) := fun a ha => by
    rw [taskIn, t.stage?_task mode _ ha, Option.map_some, t.ids_stage]
  have onSource : plan.runner? .validateSource = some .source := rfl
  have onDest : plan.runner? .validateDest = some .destination := rfl
  have name : (f.taskIn plan mode t).name = t.table.name := rfl
  rw [← TableScripts.sameCounts_iff, RowsAgree, ids _ source, ids _ dest, name]
  simp only [counts_iff found ht unique onSource, counts_iff found ht unique onDest, Option.some.injEq]
  constructor
  · rintro ⟨_, filled, rfl, same, each⟩
    exact ⟨filled, same, each⟩
  · rintro ⟨filled, same, each⟩
    exact ⟨_, filled, rfl, same, each⟩

/-- A table is accepted if all scripts of its units exit with status zero, and those that count agree. -/
theorem accepted_iff (source : .validateSource ∈ plan.actions) (dest : .validateDest ∈ plan.actions) :
    (f.taskIn plan mode t).Accepted results (.new plan runners (indexOf mode tables)) ↔
      ScriptsPass results runners plan mode t.scripts := by
  constructor
  · intro accepted
    have each := (units_succeed_iff found ht unique).mp accepted.units
    obtain ⟨counting, agree⟩ := (rowsAgree_iff found ht unique source dest).mp accepted.rows
    exact ⟨fun a ha side ran => t.forall_units_iff.mp fun u hu => (each a ha side ran u hu).1, counting, agree⟩
  · rintro ⟨exits, counting, agree⟩
    refine ⟨(units_succeed_iff found ht unique).mpr fun a ha side ran u hu => ⟨?_, fun measures => ?_⟩,
      (rowsAgree_iff found ht unique source dest).mpr ⟨counting, agree⟩⟩
    · exact t.forall_units_iff.mpr (exits a ha side ran) u hu
    · obtain ⟨-, same, each⟩ := TableScripts.sameCounts_iff.mpr ⟨counting, agree⟩
      have mem := List.mem_map_of_mem (f := (·.1)) hu
      rw [(mem_groupScripts.mp hu).1]
      cases a with
      | validateSource =>
        cases ran
        obtain ⟨n, counted, -⟩ := each u.1 mem
        exact counted ▸ Option.some_ne_none n
      | validateDest =>
        cases ran
        obtain ⟨n, -, counted⟩ := each u.1 (same ▸ mem)
        exact counted ▸ Option.some_ne_none n
      | _ => exact absurd rfl measures

end

end ScriptTree

end TableMigration
