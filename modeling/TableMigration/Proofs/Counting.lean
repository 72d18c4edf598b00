import Mathlib.Data.List.Sort
import TableMigration.Proofs.Endings
import TableMigration.Proofs.Jobs
import TableMigration.Validation

/-!
# Rows counted at both ends

A comparison that passes has found two equal counts for each validate unit. Nothing but a validate unit
of this table, run in this warehouse, can have left such a count behind, and with scripts whose results
are fixed it leaves the number its last script prints. So a table that succeeds has the same units
validated in both warehouses, and the scripts print the same number of rows there.
-/

namespace TableMigration

section
variable {ω : Type} {execute : ω → String → ω × ScriptResult} {results : String → ScriptResult}
  (fixed : ∀ world command, (execute world command).2 = results command)

/-! ## Counts from scripts -/

/-- The last script of the unit exits well and prints `n` as its number of rows. -/
def ScriptRunner.Counts (results : String → ScriptResult) (d : ScriptRunner) (u : UnitKey) (n : Nat) :
    Prop :=
  ∃ commands command output, d.commands? u = some commands ∧ commands.getLast? = some command ∧
    results command = .exited 0 output ∧ readRowCount (Text.decodeLossy output) = .ok n

include fixed in
theorem runCommands_eq_some {commands : List String} {world : ω} {printed text : String}
    (h : (runCommands execute world printed commands).2 = some text) :
    commands = [] ∧ text = printed ∨ ∃ command output, commands.getLast? = some command ∧
      results command = .exited 0 output ∧ text = Text.decodeLossy output := by
  induction commands generalizing world printed with
  | nil => exact Or.inl ⟨rfl, (Option.some.inj h).symm⟩
  | cons command rest ih =>
    right
    rw [runCommands] at h
    split at h
    next world' output ran =>
      obtain ⟨rfl, rfl⟩ | ⟨last, output', found, ran', rfl⟩ := ih h
      · refine ⟨command, output, rfl, ?_, rfl⟩
        rw [← fixed world, ran]
      · exact ⟨last, output', by simp [List.getLast?_cons, found], ran', rfl⟩
    next => cases h

theorem JobResult.count_of {a : Action} {printed : Option String} {n : Nat}
    (h : (JobResult.of a printed).count = some n) :
    ∃ text, printed = some text ∧ readRowCount text = .ok n := by
  unfold JobResult.of at h
  cases printed with
  | none => cases h
  | some text =>
    cases measured : a.measures? with
    | none =>
      rw [measured] at h
      cases h
    | some side =>
      rw [measured] at h
      cases read : readRowCount text with
      | error e => simp [read] at h
      | ok m =>
        simp only [read, Option.some.injEq] at h
        exact ⟨text, rfl, read ▸ congrArg Except.ok h⟩

include fixed in
theorem ScriptJob.Ends.counts {d : ScriptRunner} {job : ScriptJob} {result : JobResult} {n : Nat}
    (ended : job.Ends execute result) (prepared : d.commands? job.handle.toUnitKey = some job.commands)
    (counted : result.count = some n) : d.Counts results job.handle.toUnitKey n := by
  obtain ⟨world, rfl⟩ := ended
  obtain ⟨text, printed, read⟩ := JobResult.count_of counted
  obtain ⟨-, rfl⟩ | ⟨command, output, last, ran, rfl⟩ := runCommands_eq_some fixed printed
  · cases read
  · exact ⟨job.commands, command, output, prepared, last, ran, read⟩

/-- Every count was left by one of `units`, of the table, warehouse and id that it is kept for. -/
def Attributed (results : String → ScriptResult) (d : ScriptRunner) (units : List Handle)
    (counts : RowCounts) : Prop :=
  ∀ key n, counts.get? key = some n → ∃ h ∈ units, h.task = key.task ∧ h.unit = key.unit ∧
    h.action.measures? = some key.side ∧ d.Counts results h.toUnitKey n

include fixed in
theorem Attributed.after {d : ScriptRunner} {units : List Handle} {counts : RowCounts} {job : ScriptJob}
    {result : JobResult} (h : Attributed results d units counts) (known : job.handle ∈ units)
    (prepared : d.commands? job.handle.toUnitKey = some job.commands)
    (ended : job.Ends execute result) :
    Attributed results d units (Scheduler.countsAfter counts job.handle result) := by
  unfold Scheduler.countsAfter
  split
  next side m measured counted =>
    intro key n read
    rw [RowCounts.get?_record] at read
    split at read
    next same =>
      cases read
      rw [same]
      exact ⟨job.handle, known, rfl, rfl, measured, ended.counts fixed prepared counted⟩
    next => exact h key n read
  next => exact h

end

/-! ## What a comparison has seen -/

/-- The table has the same units to validate in both warehouses, some at least, and the rows counted
there are as many for each. -/
def RowsAgree (results : String → ScriptResult) (d : ScriptRunner) (t : Task) : Prop :=
  ∃ ids, ids ≠ [] ∧ (t.stage? .validateSource).map (·.ids) = some ids ∧
    (t.stage? .validateDest).map (·.ids) = some ids ∧ ∀ id ∈ ids, ∃ n,
      d.Counts results ⟨t.name, .validateSource, id⟩ n ∧ d.Counts results ⟨t.name, .validateDest, id⟩ n

theorem CountComparison.passes_iff {v : CountComparison} {counts : RowCounts} {t : Task} :
    v.passes counts t = true ↔ v.compares = false ∨ unitIds t ≠ [] ∧ ∀ id ∈ unitIds t, ∃ n,
      counts.get? ⟨t.name, .source, id⟩ = some n ∧ counts.get? ⟨t.name, .destination, id⟩ = some n := by
  have agree_iff : ∀ id, agree counts t.name id = true ↔ ∃ n,
      counts.get? ⟨t.name, .source, id⟩ = some n ∧
      counts.get? ⟨t.name, .destination, id⟩ = some n := by
    intro id
    unfold agree
    split
    next n m read read' =>
      rw [read, read', beq_iff_eq]
      exact ⟨fun same => ⟨n, rfl, same ▸ rfl⟩, fun ⟨k, hn, hm⟩ => Option.some.inj (hn.trans hm.symm)⟩
    next missing =>
      simp only [Bool.false_eq_true, false_iff]
      rintro ⟨n, read, read'⟩
      exact missing n n read read'
  simp only [passes, Bool.or_eq_true, Bool.not_eq_true', Bool.and_eq_true, decide_eq_true_eq,
    List.all_eq_true, agree_iff]

theorem Task.map_ids_stage?_of_shape {t t' : Task} (h : t'.shape = t.shape) (a : Action) :
    (t'.stage? a).map (·.ids) = (t.stage? a).map (·.ids) := by
  have read : ∀ t : Task, (t.stage? a).map (·.ids) = (t.shape.find? (·.1 == a)).map (·.2) := by
    intro t
    rw [shape, List.find?_map, Option.map_map]
    rfl
  rw [read, read, h]

theorem RowsAgree.congr {results : String → ScriptResult} {d : ScriptRunner} {t t' : Task}
    (h : RowsAgree results d t') (name : t'.name = t.name) (shape : t'.shape = t.shape) :
    RowsAgree results d t := by
  unfold RowsAgree at h
  rwa [Task.map_ids_stage?_of_shape shape, Task.map_ids_stage?_of_shape shape, name] at h

theorem Action.eq_of_measures? {a b : Action} {side : Warehouse} (ha : a.measures? = some side)
    (hb : b.measures? = some side) : a = b := by
  cases a <;> cases ha <;> cases b <;> first | rfl | cases hb

section
variable {results : String → ScriptResult} {d : ScriptRunner} {ts : List Task} {counts : RowCounts}
  (attributed : Attributed results d (population ts) counts) (distinct : (ts.map (·.name)).Nodup) {i : Nat}
  {t : Task} (at_i : ts[i]? = some t)
include attributed distinct at_i

theorem Attributed.unit (wf : t.WellFormed) {s : Stage} (hs : s ∈ t.stages) {side : Warehouse}
    (measures : s.action.measures? = some side) {id : String} {n : Nat}
    (read : counts.get? ⟨t.name, side, id⟩ = some n) :
    id ∈ s.ids ∧ d.Counts results ⟨t.name, s.action, id⟩ n := by
  obtain ⟨⟨⟨task, action, unit⟩, owner⟩, hh, of_task, of_unit, measured, counted⟩ := attributed _ n read
  obtain rfl : task = t.name := of_task
  obtain rfl : unit = id := of_unit
  obtain rfl : action = s.action := Action.eq_of_measures? measured measures
  obtain ⟨u, at_u, name, s', hs', same, mem⟩ := mem_population.mp hh
  obtain rfl := Scheduler.eq_of_name distinct at_i at_u name
  rw [show ts[i]? = some u from at_u] at at_i
  obtain rfl := Option.some.inj at_i
  exact ⟨wf.eq_of_action hs' hs same ▸ mem, counted⟩

theorem rowsAgree_of_passes (wf : t.WellFormed) (source : .validateSource ∈ t.actions)
    (dest : .validateDest ∈ t.actions) (passed : CountComparison.passes ⟨true⟩ counts t = true) :
    RowsAgree results d t := by
  obtain ⟨b, hb, action⟩ := List.mem_map.mp source
  obtain ⟨c, hc, action'⟩ := List.mem_map.mp dest
  have stage : t.stage? .validateSource = some b := action ▸ wf.stage?_of_mem hb
  have stage' : t.stage? .validateDest = some c := action' ▸ wf.stage?_of_mem hc
  have units : CountComparison.unitIds t = b.ids ++ c.ids := by
    simp [CountComparison.unitIds, stage, stage']
  obtain ⟨some_, agree⟩ := (CountComparison.passes_iff.mp passed).resolve_left (by decide)
  rw [units] at some_ agree
  -- each id is counted on both sides, and a count is left by a unit of that side only
  have both : ∀ id ∈ b.ids ++ c.ids, id ∈ b.ids ∧ id ∈ c.ids ∧ ∃ n,
      d.Counts results ⟨t.name, .validateSource, id⟩ n ∧
      d.Counts results ⟨t.name, .validateDest, id⟩ n := by
    intro id hid
    obtain ⟨n, read, read'⟩ := agree id hid
    have counted := attributed.unit distinct at_i wf hb (by rw [action]; rfl) read
    have counted' := attributed.unit distinct at_i wf hc (by rw [action']; rfl) read'
    rw [action] at counted
    rw [action'] at counted'
    exact ⟨counted.1, counted'.1, n, counted.2, counted'.2⟩
  have same : b.ids = c.ids := List.Subset.antisymm_of_pairwise (wf.stages b hb).ids
    (wf.stages c hc).ids (fun id hid => (both id (List.mem_append_left _ hid)).2.1)
    (fun id hid => (both id (List.mem_append_right _ hid)).1)
  have filled : b.ids ≠ [] := fun empty => some_ (by rw [← same, empty]; rfl)
  refine ⟨b.ids, filled, by rw [stage]; rfl, by rw [stage', same]; rfl, fun id hid => ?_⟩
  exact (both id (List.mem_append_left _ hid)).2.2

end

theorem Exchange.verdicts {δ : Type} [Dispatcher δ] {counts : RowCounts} {k : Nat}
    {x y : Outside δ CountComparison} {ms : List Moment} (exchange : Exchange counts k x ms y) :
    y.validator = x.validator ∧ ∀ m ∈ ms, ∀ owner a verdict, m.request = .validate owner a verdict →
      ∃ i t, owner = k + i ∧ m.tasks[i]? = some t ∧ verdict = .ofBool (x.validator.passes counts t) := by
  induction exchange with
  | nil x => exact ⟨rfl, List.forall_mem_nil _⟩
  | submit served _ ih =>
    obtain ⟨same, asked⟩ := ih
    exact ⟨same, List.forall_mem_cons.mpr ⟨fun _ _ _ he => (nomatch he), asked⟩⟩
  | @validate x y ms ts i t v verdict a subject judged _ ih =>
    cases judged
    obtain ⟨same, asked⟩ := ih
    refine ⟨same, List.forall_mem_cons.mpr ⟨fun owner b verdict' he => ?_, asked⟩⟩
    cases he
    exact ⟨i, t, rfl, subject, rfl⟩

/-! ## Verdicts along a run -/

def Conduct.passing (agreed : Nat → Prop) : Conduct where
  answers
    | .validate owner _ .passed => agreed owner
    | .validate _ _ (.crashed _) | .validate _ _ .rejected | .submit .. => True
  settles _ _ _ _ := True
  settles_of_finished _ _ _ := trivial

theorem Task.Moves.agreed {agreed : Nat → Prop} {owner : Nat} {t t' : Task} (wf : t.WellFormed)
    (moves : t.Moves (.passing agreed) owner t')
    (unjudged : ∀ s ∈ t.stages, s.progress ≠ .succeeded) {s : Stage} (hs : s ∈ t'.stages)
    (compare : s.action.isCompare = true) (stored : s.progress = .succeeded) : agreed owner := by
  -- without units its progress never comes from them, so nothing but a verdict lets it succeed
  refine (moves.keeps_stages (P := fun s => s.action.isCompare = true →
    s.units = [] ∧ (s.progress = .succeeded → agreed owner)) wf ?_ ?_ ?_ s hs compare).2 stored
  · intro s h compare
    obtain ⟨empty, known⟩ := h compare
    refine ⟨empty, fun stored => known ?_⟩
    rwa [Stage.refresh_progress, Stage.liveProgress_of_empty empty] at stored
  · intro s s' cleared wf change h compare
    rw [change.action_eq] at compare
    obtain ⟨empty, known⟩ := h compare
    cases change with
    | start _ new => simp [Stage.unitProgress?, empty] at new
    | settle running _ => simp [Stage.unitProgress?, empty] at running
    | judge _ _ _ decides =>
      refine ⟨empty, fun stored => ?_⟩
      cases decides with
      | @verdict passed _ answers =>
        cases passed with
        | true => exact answers
        | false => cases stored
      | nothing gated =>
        rw [gated] at compare
        cases compare
  · intro s hs compare
    exact ⟨(wf.stages s hs).compare compare, fun stored => absurd stored (unjudged s hs)⟩

namespace Scheduler

theorem perform_counts {σ δ ν : Type} [NameStore σ] [Dispatcher δ] [Validator ν] (s : Scheduler σ δ ν)
    (c : Call) : (s.perform c).counts = s.counts := by
  refine perform_keeps (P := fun s' => s'.counts = s.counts) (fun _ _ same => same) ?_ rfl c
  intro s' a report same
  rcases s'.schedule_cases a report with ⟨window, he, -⟩ | ⟨reason, he, -⟩
  · rw [he]
    exact same
  · rw [he]
    exact same

section
variable {σ ω : Type} [NameStore σ] {execute : ω → String → ω × ScriptResult}
  {results : String → ScriptResult} {first : ScriptRunner} {ts : List Task}
  {s s' : Scheduler σ ScriptRunner CountComparison}

/-- Since the tasks were `ts`, units have ended as their scripts say, and comparisons have passed only
where rows agree. -/
structure Tallied (results : String → ScriptResult) (first : ScriptRunner) (ts : List Task)
    (s : Scheduler σ ScriptRunner CountComparison) : Prop where
  evolves : Evolves (.passing fun i => ∀ t, ts[i]? = some t → RowsAgree results first t) 0 ts s.tasks
  employs : Employs first (population ts) s.dispatcher
  attributed : Attributed results first (population ts) s.counts
  validator : s.validator = ⟨true⟩

variable (wf : ∀ t ∈ ts, t.WellFormed)
  (compares : ∀ t ∈ ts, .validateSource ∈ t.actions ∧ .validateDest ∈ t.actions)
  (distinct : (ts.map (·.name)).Nodup)
include wf compares distinct

theorem Tallied.answers (h : Tallied results first ts s) (c : Call) {m : Moment} (hm : m ∈ s.moments c) :
    (Conduct.passing fun i => ∀ t, ts[i]? = some t → RowsAgree results first t).answers m.request := by
  have now := h.evolves.wellFormed wf
  cases asked : m.request with
  | submit g receipt => trivial
  | validate owner a verdict =>
    -- the counts cannot change during the call, so the verdict is about those attributed before it
    obtain ⟨i, u, same, at_u, rfl⟩ := (perform_exchange s now c).verdicts.2 m hm owner a verdict asked
    rw [Nat.zero_add] at same
    subst same
    rw [show s.outside.validator = ⟨true⟩ from h.validator]
    cases passed : CountComparison.passes ⟨true⟩ s.counts u with
    | false => trivial
    | true =>
      intro t at_t
      have moved := ((perform_evolves (w := .any) s now c fun _ _ => trivial).2 m hm).1
      obtain ⟨t', at_t', moves⟩ := h.evolves.moves owner t at_t
      obtain ⟨u', at_u', moves'⟩ := moved.moves owner t' at_t'
      obtain rfl := Option.some.inj (at_u.symm.trans at_u')
      have wf_t := wf t (List.mem_of_getElem? at_t)
      have wf_t' := moves.wellFormed wf_t
      have name : u.name = t.name := moves'.name_eq.trans moves.name_eq
      have shape : u.shape = t.shape := (moves'.shape_eq wf_t').trans (moves.shape_eq wf_t)
      have actions := Task.actions_eq_of_shape shape
      have units : population m.tasks = population ts :=
        (moved.population_eq now).trans (h.evolves.population_eq wf)
      have names : m.tasks.map (·.name) = ts.map (·.name) := moved.names_eq.trans h.evolves.names_eq
      obtain ⟨source, dest⟩ := compares t (List.mem_of_getElem? at_t)
      exact (rowsAgree_of_passes (units ▸ h.attributed) (names ▸ distinct) at_u (moves'.wellFormed wf_t')
        (actions ▸ source) (actions ▸ dest) passed).congr name shape

variable (fixed : ∀ world command, (execute world command).2 = results command)
include fixed

theorem Tallied.step (h : Tallied results first ts s) (step : JobStep (ScriptJob.Ends execute) s s') :
    Tallied results first ts s' := by
  have now := h.evolves.wellFormed wf
  have conduct := fun c m hm => h.answers wf compares distinct c (m := m) hm
  refine ⟨h.evolves.trans (step.evolves now (fun _ _ _ _ => trivial) conduct),
    h.employs.step now (h.evolves.population_eq wf) step, ?_, ?_⟩
  · cases step with
    | call c => exact perform_counts s c ▸ h.attributed
    | @complete before after job result way ended =>
      obtain ⟨known, prepared⟩ := h.employs.running job (by rw [way]; simp)
      rw [complete_eq]
      exact h.attributed.after fixed known prepared ended
    | shutdown => exact h.attributed
  · cases step with
    | call c => exact (perform_exchange s now c).verdicts.1.trans h.validator
    | complete way ended =>
      rw [complete_eq]
      exact h.validator
    | shutdown => exact h.validator

theorem Tallied.run (h : Tallied results first ts s) (run : JobRun (ScriptJob.Ends execute) s s') :
    Tallied results first ts s' := by
  induction run with
  | refl => exact h
  | tail _ step ih => exact ih.step wf compares distinct fixed step

end

section
variable {σ δ ν : Type} {plan : Plan} {tasks : List Task}

theorem new_actions (made : ∀ t ∈ tasks, t.actions = plan.actions) (gate : Gate) (log : FailoverLog σ)
    (d : δ) (v : ν) : ∀ t ∈ (Scheduler.new plan tasks gate log d v).tasks, t.actions = plan.actions :=
  new_keeps (P := fun t => t.actions = plan.actions) made
    (fun t ht => (Task.actions_eq_of_shape t.shape_assumeSucceeded).trans (made t ht)) plan gate log d v

theorem mem_of_unresumed {gate : Gate} {log : FailoverLog σ} {d : δ} {v : ν} {t : Task}
    (ht : t ∈ (Scheduler.new plan tasks gate log d v).tasks)
    (unresumed : log.isFinished t.name = false) : t ∈ tasks := by
  obtain ⟨u, hu, rfl⟩ := List.mem_map.mp ht
  by_cases known : log.isFinished u.name = true
  · rw [if_pos known] at unresumed
    exact absurd (unresumed.symm.trans known) (by decide)
  · rwa [if_neg known]

end

/-- With scripts whose results are fixed, run through in any order between calls: a table that was not
resumed and has succeeded was validated in the same units in both warehouses, and for each of them the
last script on either side printed the same number of rows. -/
theorem counts_agree {σ ω : Type} [NameStore σ] {execute : ω → String → ω × ScriptResult}
    {results : String → ScriptResult}
    (fixed : ∀ world command, (execute world command).2 = results command)
    {plan : Plan} (source : plan.contains .validateSource = true)
    (dest : plan.contains .validateDest = true) (compare : plan.contains .compareResults = true)
    {tasks : List Task}
    (made : ∀ t ∈ tasks, ∃ seeds, Task.ofPlan t.name plan seeds = .ok { t with destination := none })
    (distinct : (tasks.map (·.name)).Nodup) {gate : Gate} {log : FailoverLog σ} {runners : Runners}
    {index : ScriptIndex} {s : Scheduler σ ScriptRunner CountComparison}
    (run : JobRun (ScriptJob.Ends execute)
      (.new plan tasks gate log (.new plan runners index) (.ofPlan plan)) s)
    {t : Task} (ht : t ∈ s.tasks) (succeeded : t.progress = .succeeded)
    (unresumed : log.isFinished t.name = false) :
    RowsAgree results (.new plan runners index) t := by
  have fresh : ∀ t ∈ tasks, t.Fresh := fun t ht => ⟨plan, made t ht⟩
  have start := new_wellFormed fresh plan gate log (ScriptRunner.new plan runners index)
    (CountComparison.ofPlan plan)
  have planned : ∀ t ∈ tasks, t.actions = plan.actions := fun t ht => by
    obtain ⟨seeds, made⟩ := made t ht
    exact Task.actions_of_ofPlan made
  have listed := new_actions planned gate log (ScriptRunner.new plan runners index)
    (CountComparison.ofPlan plan)
  have mem : ∀ {a}, plan.contains a = true → a ∈ plan.actions := List.contains_iff_mem.mp
  have first : Tallied results (.new plan runners index) _
      (.new plan tasks gate log (.new plan runners index) (.ofPlan plan)) :=
    { evolves := .refl ..
      employs := ⟨rfl, List.forall_mem_nil _⟩
      attributed := fun _ _ read => nomatch read
      validator := congrArg CountComparison.mk (by rw [source, dest]; rfl) }
  have final := first.run start (fun t ht => ⟨listed t ht ▸ mem source, listed t ht ▸ mem dest⟩)
    ((new_names ..).symm ▸ distinct) fixed run
  obtain ⟨i, at_i⟩ := List.mem_iff_getElem?.mp ht
  obtain ⟨t₀, at_start, moves⟩ := final.evolves.origin at_i
  have ht₀ := List.mem_of_getElem? at_start
  have wf := moves.wellFormed (start t₀ ht₀)
  have done : t.Done :=
    (final.evolves.lags start (new_lags fresh plan gate log _ _) t ht).done wf succeeded
  obtain ⟨b, hb, compares⟩ := List.mem_map.mp
    (show .compareResults ∈ t.actions by
      rw [Task.actions_eq_of_shape (moves.shape_eq (start t₀ ht₀)), listed t₀ ht₀]
      exact mem compare)
  have compares' : b.action.isCompare = true := by rw [compares]; rfl
  have judged : b.progress = .succeeded := (done b hb).2 ((wf.stages b hb).compare compares')
  have made₀ := mem_of_unresumed ht₀ (moves.name_eq ▸ unresumed)
  have unjudged : ∀ s ∈ t₀.stages, s.progress ≠ .succeeded := fun s hs stored => by
    cases ((fresh t₀ made₀).stage_new hs).1.symm.trans stored
  exact (moves.agreed (start t₀ ht₀) unjudged hb compares' judged t₀ (by rwa [Nat.zero_add])).congr
    moves.name_eq.symm (moves.shape_eq (start t₀ ht₀)).symm

end Scheduler

/-! ## A table counted twice -/

namespace CountedTable

def plan : Plan :=
  ⟨.hive, [.validateSource, .validateDest, .compareResults], by decide, by decide⟩

def task : Task where
  name := "db.t"
  destination := none
  stages := [⟨.validateSource, .new, [⟨"all", .new⟩]⟩, ⟨.validateDest, .new, [⟨"all", .new⟩]⟩,
    ⟨.compareResults, .new, []⟩]
  progress := .new

def index : ScriptIndex :=
  ⟨[(⟨"db.t", .validateSource, "all"⟩, [⟨"source.sql"⟩]),
    (⟨"db.t", .validateDest, "all"⟩, [⟨"dest.sql"⟩])]⟩

def seven (_ : Unit) (_ : String) : Unit × ScriptResult :=
  ((), .exited 0 "7\n".toUTF8)

def start : Scheduler MemoryStore ScriptRunner CountComparison :=
  .new plan [task] (.uniform plan 1) (.openOn ⟨[]⟩) (.new plan ⟨"hive", "odps"⟩ index) (.ofPlan plan)

def round (s : Scheduler MemoryStore ScriptRunner CountComparison) :
    Scheduler MemoryStore ScriptRunner CountComparison :=
  (s.tick.1.runJobs seven ()).2

theorem round_run (s : Scheduler MemoryStore ScriptRunner CountComparison) :
    Scheduler.JobRun (ScriptJob.Ends seven) s (round s) :=
  .head (.call .tick) (Scheduler.runJobs_run seven () s.tick.1)

theorem rows_agree : (round (round start)).tick.1.tasks.map (·.progress) = [.succeeded] ∧
    ∀ t ∈ (round (round start)).tick.1.tasks,
      RowsAgree (fun _ => .exited 0 "7\n".toUTF8) (.new plan ⟨"hive", "odps"⟩ index) t := by
  have run : Scheduler.JobRun (ScriptJob.Ends seven) start (round (round start)).tick.1 :=
    ((round_run start).trans (round_run (round start))).tail (.call .tick)
  have made : ∀ t ∈ [task], ∃ seeds, Task.ofPlan t.name plan seeds = .ok { t with destination := none } :=
    List.forall_mem_singleton.mpr ⟨fun a => a.measures?.map fun _ => ["all"], rfl⟩
  have succeeded : (round (round start)).tick.1.tasks.map (·.progress) = [.succeeded] := by decide +kernel
  refine ⟨succeeded, fun t ht => ?_⟩
  exact Scheduler.counts_agree (fun _ _ => rfl) rfl rfl rfl made (List.nodup_singleton _) run ht
    (List.mem_singleton.mp (succeeded ▸ List.mem_map_of_mem (f := (·.progress)) ht)) rfl

end CountedTable

end TableMigration
