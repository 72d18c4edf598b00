import TableMigration.Proofs.Counting
import TableMigration.Proofs.FinalResult
import TableMigration.Proofs.Generation
import TableMigration.Proofs.Once

/-!
# Scripts with fixed results decide their tables

If each command line always gives the same result, what becomes of a unit is fixed beforehand by its
scripts. The verdict on a table is fixed as well, though it is read off the counts recorded so far: once a
table is compared all its validate units have succeeded, and a unit that succeeds in counting leaves its
count. So every run of scripts is one under a fate, in which nothing is refused.
-/

namespace TableMigration

/-! ## What becomes of a unit -/

def constantly (results : String → ScriptResult) (_ : Unit) (command : String) : Unit × ScriptResult :=
  ((), results command)

/-- What becomes of the unit `u` under these results; without command lines it cannot succeed. -/
def ScriptRunner.result (results : String → ScriptResult) (d : ScriptRunner) (u : UnitKey) : JobResult :=
  match d.commands? u with
  | some commands => .of u.action (runCommands (constantly results) () "" commands).2
  | none => ⟨.failed, none⟩

section
variable {ω : Type} {execute : ω → String → ω × ScriptResult} {results : String → ScriptResult}
  (fixed : ∀ world command, (execute world command).2 = results command)

omit fixed in
theorem runCommands_cons (world : ω) (printed command : String) (rest : List String) :
    (runCommands execute world printed (command :: rest)).2 =
      match (execute world command).2 with
      | .exited 0 output =>
        (runCommands execute (execute world command).1 (Text.decodeLossy output) rest).2
      | _ => none := by
  rw [runCommands]
  obtain ⟨world', result⟩ := execute world command
  cases result with
  | exited status output => cases status <;> rfl
  | notStarted => rfl
  | killed => rfl

include fixed in
theorem runCommands_fixed (world : ω) (printed : String) (commands : List String) :
    (runCommands execute world printed commands).2 =
      (runCommands (constantly results) () printed commands).2 := by
  induction commands generalizing world printed with
  | nil => rfl
  | cons command rest ih =>
    rw [runCommands_cons, runCommands_cons, fixed, constantly]
    cases results command with
    | exited status output =>
      cases status with
      | zero => exact ih _ _
      | succ _ => rfl
    | notStarted => rfl
    | killed => rfl

include fixed in
theorem ScriptJob.Ends.result_eq {d : ScriptRunner} {job : ScriptJob} {result : JobResult}
    (ended : job.Ends execute result) (prepared : d.commands? job.handle.toUnitKey = some job.commands) :
    result = d.result results job.handle.toUnitKey := by
  obtain ⟨world, rfl⟩ := ended
  rw [runCommands_fixed fixed, ScriptRunner.result, prepared]

end

theorem ScriptRunner.count_of_succeeded {results : String → ScriptResult} {d : ScriptRunner} {u : UnitKey}
    {side : Warehouse} (succeeded : (d.result results u).outcome = .succeeded)
    (measures : u.action.measures? = some side) : (d.result results u).count ≠ none := by
  unfold result at succeeded ⊢
  cases found : d.commands? u with
  | none => simp [found] at succeeded
  | some commands =>
    simp only [found, JobResult.of, measures] at succeeded ⊢
    cases printed : (runCommands (constantly results) () "" commands).2 with
    | none => simp [printed] at succeeded
    | some text => cases read : readRowCount text <;> simp_all

/-! ## Counts left behind -/

def Task.Counted (counts : RowCounts) (t : Task) : Prop :=
  ∀ s ∈ t.stages, ∀ side, s.action.measures? = some side → ∀ u ∈ s.units, u.progress = .succeeded →
    counts.get? ⟨t.name, side, u.id⟩ ≠ none

def Conduct.unsettled : Conduct where
  answers
    | .submit _ (.finished _) => False
    | .submit _ .running | .submit _ (.refused _) | .validate .. => True
  settles _ _ _ _ := False
  settles_of_finished _ _ h := h

theorem Exchange.unsettled {ν : Type} [Validator ν] {counts : RowCounts} {k : Nat}
    {x y : Outside ScriptRunner ν} {ms : List Moment} (exchange : Exchange counts k x ms y) :
    ∀ m ∈ ms, Conduct.unsettled.answers m.request := by
  induction exchange with
  | nil x => exact List.forall_mem_nil _
  | @submit x y ms ts h d receipt served _ ih =>
    refine List.forall_mem_cons.mpr ⟨?_, ih⟩
    obtain ⟨e, -, -, rfl⟩ | ⟨commands, -, -, rfl⟩ := ScriptRunner.submit_cases served <;> trivial
  | validate a subject judged _ ih => exact List.forall_mem_cons.mpr ⟨trivial, ih⟩

namespace Task

variable {counts counts' : RowCounts} {t t' : Task}

theorem Moves.counted {owner : Nat} (wf : t.WellFormed) (moves : t.Moves .unsettled owner t')
    (h : t.Counted counts) : t'.Counted counts := by
  unfold Counted
  rw [moves.name_eq]
  refine moves.keeps_stages (P := fun s => ∀ side, s.action.measures? = some side → ∀ u ∈ s.units,
    u.progress = .succeeded → counts.get? ⟨t.name, side, u.id⟩ ≠ none) wf (fun _ hs => hs) ?_ h
  intro s s' cleared _ change hs side measures u hu succeeded
  rw [change.action_eq] at measures
  cases change with
  | start _ _ =>
    obtain rfl | ⟨hu, -⟩ := Stage.mem_units_setUnit hu
    · cases succeeded
    · exact hs side measures u hu succeeded
  | settle _ settles => exact settles.elim
  | judge _ _ _ _ => exact hs side measures u hu succeeded

theorem Counted.mono (h : t.Counted counts) (kept : ∀ key, counts.get? key ≠ none → counts'.get? key ≠ none) :
    t.Counted counts' :=
  fun s hs side measures u hu succeeded => kept _ (h s hs side measures u hu succeeded)

theorem Counted.finish (wf : t.WellFormed) (h : t.Counted counts) (a : Action) (id : String) (o : Outcome)
    (recorded : o = .succeeded → ∀ side, a.measures? = some side → counts.get? ⟨t.name, side, id⟩ ≠ none) :
    (t.finish a id o).1.Counted counts := by
  rcases finish_cases wf a id o with same | ⟨s, hs, rfl, -, set⟩
  · rw [same]
    exact h
  · rw [set]
    intro b hb side measures u hu succeeded
    rcases mem_replace hb with rfl | ⟨hb, -⟩
    · obtain rfl | ⟨hu, -⟩ := Stage.mem_units_setUnit hu
      · refine recorded ?_ side measures
        cases o with
        | succeeded => rfl
        | failed => cases succeeded
      · exact h s hs side measures u hu succeeded
    · exact h b hb side measures u hu succeeded

theorem Fresh.counted (fresh : t.Fresh) (counts : RowCounts) : t.Counted counts := by
  intro s hs side _ u hu succeeded
  rw [(fresh.stage_new hs).2 u hu] at succeeded
  cases succeeded

end Task

namespace Scheduler

theorem countsAfter_keeps (counts : RowCounts) (h : Handle) (result : JobResult) (key : CountKey)
    (had : counts.get? key ≠ none) : (countsAfter counts h result).get? key ≠ none := by
  unfold countsAfter
  split
  · rw [RowCounts.get?_record]
    split
    · exact Option.some_ne_none _
    · exact had
  · exact had

theorem countsAfter_counts (counts : RowCounts) (h : Handle) {result : JobResult} {side : Warehouse}
    (measures : h.action.measures? = some side) (counted : result.count ≠ none) :
    (countsAfter counts h result).get? ⟨h.task, side, h.unit⟩ ≠ none := by
  obtain ⟨n, count⟩ := Option.ne_none_iff_exists'.mp counted
  unfold countsAfter
  rw [measures, count]
  simp [RowCounts.get?_record]

end Scheduler

/-! ## Verdicts from counts -/

theorem ScriptRunner.Counts.unique {results : String → ScriptResult} {d : ScriptRunner} {u : UnitKey}
    {n m : Nat} (h : d.Counts results u n) (h' : d.Counts results u m) : n = m := by
  obtain ⟨commands, command, output, found, last, ran, read⟩ := h
  obtain ⟨commands', command', output', found', last', ran', read'⟩ := h'
  obtain rfl := Option.some.inj (found.symm.trans found')
  obtain rfl := Option.some.inj (last.symm.trans last')
  cases ran.symm.trans ran'
  cases read.symm.trans read'
  rfl

section
variable {results : String → ScriptResult} {d : ScriptRunner} {ts : List Task} {counts : RowCounts}
  (attributed : Attributed results d (population ts) counts) (distinct : (ts.map (·.name)).Nodup) {i : Nat}
  {t : Task} (at_i : ts[i]? = some t) (wf : t.WellFormed) (counted : t.Counted counts)
include attributed distinct at_i wf counted

theorem Attributed.get?_eq {s : Stage} (hs : s ∈ t.stages) (done : s.Done) {side : Warehouse}
    (measures : s.action.measures? = some side) {id : String} (hid : id ∈ s.ids) {n : Nat}
    (counts_n : d.Counts results ⟨t.name, s.action, id⟩ n) : counts.get? ⟨t.name, side, id⟩ = some n := by
  obtain ⟨u, hu, rfl⟩ := List.mem_map.mp hid
  obtain ⟨m, read⟩ := Option.ne_none_iff_exists'.mp (counted s hs side measures u hu (done.1 u hu))
  rw [read, (attributed.unit distinct at_i wf hs measures read).2.unique counts_n]

theorem passes_of_rowsAgree (cleared : t.Cleared .compareResults) (agree : RowsAgree results d t) :
    CountComparison.passes ⟨true⟩ counts t = true := by
  obtain ⟨ids, ne, source, dest, each⟩ := agree
  obtain ⟨b, at_b, ids_b⟩ := Option.map_eq_some_iff.mp source
  obtain ⟨c, at_c, ids_c⟩ := Option.map_eq_some_iff.mp dest
  obtain ⟨hb, action_b⟩ := Task.mem_of_stage? at_b
  obtain ⟨hc, action_c⟩ := Task.mem_of_stage? at_c
  have units : CountComparison.unitIds t = ids ++ ids := by
    simp [CountComparison.unitIds, at_b, at_c, ids_b, ids_c]
  refine CountComparison.passes_iff.mpr (Or.inr ⟨by simp [units, ne], fun id hid => ?_⟩)
  rw [units, List.mem_append, or_self] at hid
  -- the unit has succeeded on both sides by now, so both counts are there
  obtain ⟨n, inSource, inDest⟩ := each id hid
  refine ⟨n, ?_, ?_⟩
  · exact attributed.get?_eq distinct at_i wf counted hb (cleared b hb (by rw [action_b]; decide))
      (by rw [action_b]; rfl) (ids_b ▸ hid) (action_b.symm ▸ inSource)
  · exact attributed.get?_eq distinct at_i wf counted hc (cleared c hc (by rw [action_c]; decide))
      (by rw [action_c]; rfl) (ids_c ▸ hid) (action_c.symm ▸ inDest)

end

/-! ## Comparisons when they are due -/

def VerdictsCompare (_owner : Nat) (_t : Task) (qs : List (Task × Request)) (_t' : Task) : Prop :=
  ∀ q ∈ qs, isVerdict q = true → q.2.action = .compareResults

section
variable {σ δ ν : Type} [NameStore σ] [Dispatcher δ] [Validator ν]

omit [NameStore σ] in
theorem Round.admitMoments_verdicts (owner : Nat) (a : Action) (t : Task) (r : Round σ δ ν) :
    ∀ q ∈ admitMoments owner a t r, isVerdict q = true → q.2.action = .compareResults := by
  simp only [admitMoments]
  split
  · exact List.forall_mem_nil _
  split
  next compare => exact List.forall_mem_singleton.mpr fun _ => beq_iff_eq.mp compare
  next =>
    split
    · exact List.forall_mem_nil _
    next s _ =>
      intro q hq verdict
      have none := List.countP_eq_zero.mp (submit_no_verdict owner a t.refresh r s.newIds)
      exact absurd verdict (none q hq)

theorem tracks_verdictsCompare (σ δ ν : Type) [NameStore σ] [Dispatcher δ] [Validator ν] :
    Tracks σ δ ν .any VerdictsCompare where
  nil _ _ := List.forall_mem_nil _
  append h h' := List.forall_mem_append.mpr ⟨h, h'⟩
  refresh _ _ := List.forall_mem_nil _
  admits owner a t r _ _ := Round.admitMoments_verdicts owner a t r

theorem Scheduler.verdict_action (s : Scheduler σ δ ν) (wf : ∀ t ∈ s.tasks, t.WellFormed) (c : Call)
    {m : Moment} (hm : m ∈ s.moments c) {owner : Nat} {a : Action} {passed : Bool}
    (request : m.request = .validate owner a (.ofBool passed)) : a = .compareResults := by
  have proper := (perform_evolves (w := .any) s wf c fun _ _ => trivial).2
  have mem : m.request ∈ (asked 0 (s.moments c)).map (·.2) :=
    asked_requests (fun m hm => (proper m hm).2) ▸ List.mem_map_of_mem hm
  obtain ⟨q, hq, same⟩ := List.mem_map.mp mem
  obtain ⟨named, -⟩ := s.asked_named wf c q hq
  rw [List.getElem?_map] at named
  obtain ⟨t, at_q, -⟩ := Option.map_eq_some_iff.mp named
  obtain ⟨t', -, verdicts⟩ :=
    perform_tracked (tracks_verdictsCompare σ δ ν) s wf c (fun _ _ => trivial) q.2.owner t at_q
  have concerned : q ∈ concerning (0 + q.2.owner) (asked 0 (s.moments c)) :=
    List.mem_filter.mpr ⟨hq, by simp⟩
  have compared := verdicts q concerned
  obtain ⟨u, q⟩ := q
  obtain rfl : q = _ := same.trans request
  exact compared (by cases passed <;> rfl)

end

/-! ## Runs under the fate of the scripts -/

open Classical in
/-- What becomes of the units of the tables `ts` under these results, and of the tables themselves. -/
noncomputable def scriptFate (results : String → ScriptResult) (d : ScriptRunner) (ts : List Task) : Fate where
  outcome owner a id := (ts[owner]?.map fun t => (d.result results ⟨t.name, a, id⟩).outcome).getD .failed
  verdict owner := decide (∃ t, ts[owner]? = some t ∧ RowsAgree results d t)

theorem scriptFate_verdict {results : String → ScriptResult} {d : ScriptRunner} {ts : List Task} {i : Nat} :
    (scriptFate results d ts).verdict i = true ↔ ∃ t, ts[i]? = some t ∧ RowsAgree results d t := by
  classical exact decide_eq_true_iff

theorem scriptFate_outcome {ts : List Task} {h : Handle} (known : h ∈ population ts)
    (results : String → ScriptResult) (d : ScriptRunner) :
    (scriptFate results d ts).outcome h.owner h.action h.unit = (d.result results h.toUnitKey).outcome := by
  obtain ⟨t, at_h, name, -⟩ := mem_population.mp known
  simp only [scriptFate, at_h, Option.map_some, Option.getD_some, ← name]

/-- Tables that are counted on both sides, each under its own name and with command lines for all its
units. -/
structure Countable (first : ScriptRunner) (ts : List Task) : Prop where
  wellFormed : ∀ t ∈ ts, t.WellFormed
  inOrder : ∀ t ∈ ts, t.InOrder
  compares : ∀ t ∈ ts, .validateSource ∈ t.actions ∧ .validateDest ∈ t.actions
  distinct : (ts.map (·.name)).Nodup
  supplied : ∀ h ∈ population ts, ∃ commands, first.commands? h.toUnitKey = some commands

namespace Scheduler

abbrev ofScripts {σ : Type} (plan : Plan) (tasks : List Task) (gate : Gate) (log : FailoverLog σ)
    (runners : Runners) (index : ScriptIndex) : Scheduler σ ScriptRunner CountComparison :=
  .new plan tasks gate log (.new plan runners index) (.ofPlan plan)

variable {σ ω : Type} [NameStore σ] {execute : ω → String → ω × ScriptResult}
  {results : String → ScriptResult} {first : ScriptRunner} {ts : List Task}
  {s s' : Scheduler σ ScriptRunner CountComparison}

/-- Since the tasks were `ts` scripts have run with these results, units on their way were handed out,
and the tables that were not done by then have left the counts of what has succeeded. -/
structure Scripted (results : String → ScriptResult) (first : ScriptRunner) (ts : List Task)
    (s : Scheduler σ ScriptRunner CountComparison) : Prop where
  tallied : Tallied results first ts s
  given : ∀ job ∈ s.dispatcher.running, job.handle ∈ s.handles
  counted : ∀ (i : Nat) (t t' : Task), ts[i]? = some t → ¬t.Done → s.tasks[i]? = some t' → t'.Counted s.counts

section
variable (able : Countable first ts)
include able

section
variable (h : Scripted results first ts s) (c : Call) {m : Moment} (hm : m ∈ s.moments c) {owner : Nat}
  {a : Action}
include h hm

theorem Scripted.undone {verdict : Verdict} (asked : m.request = .validate owner a verdict) {t : Task}
    (at_t : ts[owner]? = some t) : ¬t.Done := by
  intro done
  have now := h.tallied.evolves.wellFormed able.wellFormed
  have wf := able.wellFormed t (List.mem_of_getElem? at_t)
  obtain ⟨t', at_t', moves⟩ := h.tallied.evolves.moves owner t at_t
  obtain ⟨t₁, at_t₁, going, -⟩ :=
    subject_not_ended s now (h.tallied.evolves.inOrder able.wellFormed able.inOrder) c m hm
  rw [asked] at at_t₁
  obtain rfl := Option.some.inj (at_t'.symm.trans at_t₁)
  exact going (moves.ended wf ((Task.ended_iff wf).mpr (Or.inl done)))

theorem Scripted.passes {passed : Bool} (asked : m.request = .validate owner a (.ofBool passed)) {t u : Task}
    (at_t : ts[owner]? = some t) (at_u : m.tasks[owner]? = some u) (agree : RowsAgree results first t) :
    CountComparison.passes ⟨true⟩ s.counts u = true := by
  have now := h.tallied.evolves.wellFormed able.wellFormed
  have undone := h.undone able c hm asked at_t
  -- what is compared lies inside the call: `t` has moved to `t'` before it, and to `u` in it
  obtain ⟨moved, proper⟩ := (perform_evolves s now c (perform_exchange s now c).unsettled).2 m hm
  obtain ⟨t', at_t', moves'⟩ := moved.origin at_u
  obtain ⟨t₀, at_t₀, moves⟩ := h.tallied.evolves.origin at_t'
  obtain rfl := Option.some.inj (at_t.symm.trans at_t₀)
  have wf := able.wellFormed t (List.mem_of_getElem? at_t)
  have wf' := now t' (List.mem_of_getElem? at_t')
  have counted := moves'.counted wf' (h.counted owner t t' at_t undone at_t')
  have units : population m.tasks = population ts :=
    (moved.population_eq now).trans (h.tallied.evolves.population_eq able.wellFormed)
  have names : m.tasks.map (·.name) = ts.map (·.name) :=
    moved.names_eq.trans h.tallied.evolves.names_eq
  obtain ⟨u', at_u', proper⟩ := proper
  rw [asked] at at_u' proper
  obtain rfl := Option.some.inj (at_u.symm.trans at_u')
  have cleared : u.Cleared a := proper.cleared
  exact passes_of_rowsAgree (units ▸ h.tallied.attributed) (names ▸ able.distinct) at_u
    (moves'.wellFormed wf') counted (s.verdict_action now c hm asked ▸ cleared)
    (agree.congr (moves'.name_eq.trans moves.name_eq).symm
      ((moves'.shape_eq wf').trans (moves.shape_eq wf)).symm)

theorem Scripted.verdict {verdict : Verdict} (asked : m.request = .validate owner a verdict) :
    verdict = .ofBool ((scriptFate results first ts).verdict owner) := by
  have now := h.tallied.evolves.wellFormed able.wellFormed
  have exchange := perform_exchange s now c
  obtain ⟨i, u, same, at_u, rfl⟩ := exchange.verdicts.2 m hm owner a verdict asked
  rw [Nat.zero_add] at same
  subst same
  have validator : s.outside.validator = ⟨true⟩ := h.tallied.validator
  refine congrArg Verdict.ofBool (Bool.eq_iff_iff.mpr ?_)
  rw [scriptFate_verdict, validator]
  constructor
  · intro passed
    obtain ⟨t', at_t', -⟩ := ((perform_evolves s now c exchange.unsettled).2 m hm).1.origin at_u
    obtain ⟨t, at_t, -⟩ := h.tallied.evolves.origin at_t'
    have answers := h.tallied.answers able.wellFormed able.compares able.distinct c hm
    rw [asked, validator, passed] at answers
    exact ⟨t, at_t, answers t at_t⟩
  · rintro ⟨t, at_t, agree⟩
    exact h.passes able c hm asked at_t at_u agree

end

theorem Scripted.answers (h : Scripted results first ts s) (c : Call) :
    ∀ m ∈ s.moments c, (scriptFate results first ts).conduct.answers m.request := by
  intro m hm
  have now := h.tallied.evolves.wellFormed able.wellFormed
  cases asked : m.request with
  | validate owner a verdict => exact h.verdict able c hm asked
  | submit g receipt =>
    have submitted : g ∈ (s.moments c).filterMap (·.request.handle?) :=
      List.mem_filterMap.mpr ⟨m, hm, by rw [asked]; rfl⟩
    have known := h.tallied.evolves.population_eq able.wellFormed ▸
      mem_population_of_submitted s now c submitted
    obtain ⟨commands, found⟩ := able.supplied g known
    have requested : .submit g receipt ∈ (s.moments c).map (·.request) :=
      List.mem_map.mpr ⟨m, hm, asked⟩
    have prepared : s.dispatcher.commands? g.toUnitKey = some commands :=
      h.tallied.employs.commands ▸ found
    rw [(perform_exchange s now c).receipt_eq requested prepared]
    trivial

section
variable {job : ScriptJob} (known : job.handle ∈ population ts) (jobs : List ScriptJob)
include known

omit [NameStore σ] in
theorem Scripted.counted_complete (h : Scripted results first ts s) {i : Nat} {t t' : Task}
    (at_t : ts[i]? = some t) (undone : ¬t.Done) (at_t' : ((s.withRunning jobs).complete job.handle
      (first.result results job.handle.toUnitKey)).tasks[i]? = some t') :
    t'.Counted (countsAfter s.counts job.handle (first.result results job.handle.toUnitKey)) := by
  rw [complete_eq] at at_t'
  obtain ⟨u, at_u, same⟩ := Option.map_eq_some_iff.mp ((List.getElem?_modify ..).symm.trans at_t')
  have counted := (h.counted i t u at_t undone at_u).mono
    (countsAfter_keeps s.counts job.handle (first.result results job.handle.toUnitKey))
  by_cases here : job.handle.owner = i
  · rw [if_pos here] at same
    subst same
    have now := h.tallied.evolves.wellFormed able.wellFormed
    refine counted.finish (now u (List.mem_of_getElem? at_u)) _ _ _ fun succeeded side measures => ?_
    obtain ⟨t₀, at_t₀, moves⟩ := h.tallied.evolves.origin at_u
    obtain ⟨v, at_v, name, -⟩ := mem_population.mp known
    rw [here, at_t₀] at at_v
    rw [moves.name_eq, Option.some.inj at_v, ← name]
    exact countsAfter_counts s.counts job.handle measures
      (ScriptRunner.count_of_succeeded succeeded measures)
  · rw [if_neg here] at same
    exact same ▸ counted

omit able in
theorem reaches_complete (given : job.handle ∈ s.handles) : Reaches (scriptFate results first ts).conduct s
    ((s.withRunning jobs).complete job.handle (first.result results job.handle.toUnitKey)) := by
  have settles : (scriptFate results first ts).conduct.settles job.handle.owner job.handle.action
      job.handle.unit (first.result results job.handle.toUnitKey).outcome :=
    (scriptFate_outcome known results first).symm
  have moved := Step.outside (w := (scriptFate results first ts).conduct) (s := s)
    { s.dispatcher with running := jobs } s.validator
    (countsAfter s.counts job.handle (first.result results job.handle.toUnitKey))
  refine .tail (.single moved) ?_
  rw [complete_eq, show (s.withRunning jobs).tasks = s.tasks from rfl]
  have settled := Step.settle (s := { s with
    dispatcher := { s.dispatcher with running := jobs }
    counts := countsAfter s.counts job.handle (first.result results job.handle.toUnitKey) })
    given settles
  rwa [finish_eq] at settled

end

/-- A step of scripts is a run under their fate. -/
theorem Scripted.step (fixed : ∀ world command, (execute world command).2 = results command)
    (h : Scripted results first ts s) (step : JobStep (ScriptJob.Ends execute) s s') :
    Scripted results first ts s' ∧ Reaches (scriptFate results first ts).conduct s s' := by
  have now := h.tallied.evolves.wellFormed able.wellFormed
  have tallied := h.tallied.step able.wellFormed able.compares able.distinct fixed step
  cases step with
  | call c =>
    have exchange := perform_exchange s now c
    refine ⟨⟨tallied, fun job hjob => ?_, fun i t t'' at_t undone at_t'' => ?_⟩,
      .single (.call c (h.answers able c))⟩
    · have handles : (s.perform c).handles = _ := exchange.handles_eq
      rw [handles, List.mem_append]
      exact (exchange.takes.running job hjob).imp (h.given job) And.left
    · obtain ⟨t', at_t', moves⟩ := (perform_evolves s now c exchange.unsettled).1.origin at_t''
      rw [perform_counts]
      exact moves.counted (now t' (List.mem_of_getElem? at_t')) (h.counted i t t' at_t undone at_t')
  | @complete before after job result way ended =>
    have mem : job ∈ s.dispatcher.running := by rw [way]; simp
    obtain ⟨known, prepared⟩ := h.tallied.employs.running job mem
    obtain rfl := ended.result_eq fixed prepared
    refine ⟨⟨tallied, fun job' hjob' => ?_, fun i t t' at_t undone at_t' => ?_⟩,
      reaches_complete known _ (h.given job mem)⟩
    · rw [complete_eq] at hjob' ⊢
      exact h.given job' (way ▸ ((List.sublist_cons_self job after).append_left before).subset hjob')
    · have counted := h.counted_complete able known _ at_t undone at_t'
      rw [complete_eq]
      exact counted
  | shutdown =>
    exact ⟨⟨tallied, List.forall_mem_nil _, h.counted⟩, .single (.outside _ s.validator s.counts)⟩

theorem Scripted.run (fixed : ∀ world command, (execute world command).2 = results command)
    (h : Scripted results first ts s) (run : JobRun (ScriptJob.Ends execute) s s') :
    Scripted results first ts s' ∧ Reaches (scriptFate results first ts).conduct s s' := by
  induction run with
  | refl => exact ⟨h, .refl⟩
  | tail _ step ih =>
    obtain ⟨next, moved⟩ := ih.1.step able fixed step
    exact ⟨next, ih.2.trans moved⟩

end

end Scheduler

/-- Tables over a plan that counts on both sides and compares, each under its own name and with scripts
for all its units. -/
structure Comparable (plan : Plan) (index : ScriptIndex) (tasks : List Task) : Prop where
  source : plan.contains .validateSource = true
  dest : plan.contains .validateDest = true
  compare : plan.contains .compareResults = true
  supplied : ∀ t ∈ tasks, t.Fresh ∧ t.Supplied index
  planned : ∀ t ∈ tasks, t.actions = plan.actions
  distinct : (tasks.map (·.name)).Nodup

namespace Comparable

variable {plan : Plan} {index : ScriptIndex} {tasks : List Task} (h : Comparable plan index tasks)
  {σ : Type} (gate : Gate) (log : FailoverLog σ) (runners : Runners)
include h

theorem compares {t : Task} (ht : t ∈ tasks) : .compareResults ∈ t.actions :=
  h.planned t ht ▸ List.contains_iff_mem.mp h.compare

theorem countable :
    Countable (.new plan runners index) (Scheduler.ofScripts plan tasks gate log runners index).tasks := by
  have fresh : ∀ t ∈ tasks, t.Fresh := fun t ht => (h.supplied t ht).1
  have listed := Scheduler.new_actions h.planned gate log (ScriptRunner.new plan runners index)
    (CountComparison.ofPlan plan)
  have mem : ∀ {a}, plan.contains a = true → a ∈ plan.actions := List.contains_iff_mem.mp
  refine ⟨Scheduler.new_wellFormed fresh plan gate log _ _, Scheduler.new_inOrder fresh plan gate log _ _,
    fun t ht => ⟨listed t ht ▸ mem h.source, listed t ht ▸ mem h.dest⟩,
    (Scheduler.new_names ..).symm ▸ h.distinct, fun u known => ?_⟩
  rw [Scheduler.new_population] at known
  obtain ⟨t, at_u, name, b, hb, action, unit⟩ := mem_population.mp known
  obtain ⟨v, hv, id⟩ := List.mem_map.mp unit
  obtain ⟨gated, has⟩ := (h.supplied t (List.mem_of_getElem? at_u)).2 b hb v hv
  rw [action, id, ← name] at has
  exact ScriptRunner.exists_commands (action ▸ gated) has

theorem scripted (results : String → ScriptResult) : Scheduler.Scripted results (.new plan runners index)
    (Scheduler.ofScripts plan tasks gate log runners index).tasks
    (Scheduler.ofScripts plan tasks gate log runners index) where
  tallied :=
    { evolves := .refl ..
      employs := ⟨rfl, List.forall_mem_nil _⟩
      attributed := fun _ _ read => nomatch read
      validator := congrArg CountComparison.mk (by rw [h.source, h.dest]; rfl) }
  given := List.forall_mem_nil _
  counted i t t' at_t undone at_t' := by
    obtain rfl := Option.some.inj (at_t.symm.trans at_t')
    have kept := Scheduler.new_keeps (P := fun t => ¬t.Done → t.Counted .empty)
      (fun t ht _ => (h.supplied t ht).1.counted .empty)
      (fun t _ undone => absurd t.done_assumeSucceeded undone) plan gate log
      (ScriptRunner.new plan runners index) (CountComparison.ofPlan plan)
    exact kept t (List.mem_of_getElem? at_t) undone

end Comparable

end TableMigration
