import TableMigration.Proofs.InFlight
import TableMigration.Script.Run

/-!
# Units on their way through scripts

Between ticks the units that the runner has taken end in any order. Whatever it has taken is a unit of
the population, with the command lines of just the scripts that the index has for it; the plan, the
commands of the warehouses and the index stay what they are. Running all scripts in the order of
submission, one unit after another, is one of these runs.
-/

namespace TableMigration

/-! ## Submitting -/

namespace ScriptRunner

def commands? (d : ScriptRunner) (u : UnitKey) : Option (List String) :=
  (d.plan.runner? u.action).bind fun side =>
    (d.index.scripts? u).map fun scripts => scripts.map (d.runners.commandLine side)

theorem submit_eq_of_commands {d : ScriptRunner} {h : Handle} {commands : List String}
    (found : d.commands? h.toUnitKey = some commands) :
    d.submit h = ({ d with running := d.running ++ [⟨h, commands⟩] }, .running) := by
  obtain ⟨side, ran, found⟩ := Option.bind_eq_some_iff.mp found
  obtain ⟨scripts, listed, rfl⟩ := Option.map_eq_some_iff.mp found
  rw [submit, ran]
  simp only [listed]

theorem submit_eq_of_none {d : ScriptRunner} {h : Handle} (missing : d.commands? h.toUnitKey = none) :
    ∃ e, d.submit h = (d, .refused e) := by
  unfold submit
  cases ran : d.plan.runner? h.action with
  | none => exact ⟨_, rfl⟩
  | some side =>
    cases listed : d.index.scripts? h.toUnitKey with
    | none => exact ⟨_, rfl⟩
    | some scripts => simp [commands?, ran, listed] at missing

/-- A unit without command lines is refused, and any other is taken with them. -/
theorem submit_cases {d d' : ScriptRunner} {h : Handle} {receipt : Receipt}
    (served : d.submit h = (d', receipt)) :
    (∃ e, d.commands? h.toUnitKey = none ∧ d' = d ∧ receipt = .refused e) ∨
    ∃ commands, d.commands? h.toUnitKey = some commands ∧
      d' = { d with running := d.running ++ [⟨h, commands⟩] } ∧ receipt = .running := by
  cases found : d.commands? h.toUnitKey with
  | none =>
    obtain ⟨e, refused⟩ := submit_eq_of_none found
    cases refused.symm.trans served
    exact Or.inl ⟨e, rfl, rfl, rfl⟩
  | some commands =>
    cases (submit_eq_of_commands found).symm.trans served
    exact Or.inr ⟨commands, rfl, rfl, rfl⟩

structure Takes (d : ScriptRunner) (taken : List Handle) (d' : ScriptRunner) : Prop where
  plan : d'.plan = d.plan
  runners : d'.runners = d.runners
  index : d'.index = d.index
  running : ∀ job ∈ d'.running, job ∈ d.running ∨
    job.handle ∈ taken ∧ d.commands? job.handle.toUnitKey = some job.commands

namespace Takes

variable {d d' d'' : ScriptRunner} {taken taken' : List Handle}

theorem refl (d : ScriptRunner) (taken : List Handle) : d.Takes taken d :=
  ⟨rfl, rfl, rfl, fun _ hjob => Or.inl hjob⟩

theorem commands_eq (h : d.Takes taken d') : d'.commands? = d.commands? := by
  unfold commands?
  rw [h.plan, h.runners, h.index]

theorem trans (h : d.Takes taken d') (h' : d'.Takes taken' d'') : d.Takes (taken ++ taken') d'' := by
  refine ⟨h'.plan.trans h.plan, h'.runners.trans h.runners, h'.index.trans h.index, fun job hjob => ?_⟩
  rw [List.mem_append]
  obtain old | ⟨later, prepared⟩ := h'.running job hjob
  · obtain older | ⟨now, prepared⟩ := h.running job old
    · exact Or.inl older
    · exact Or.inr ⟨Or.inl now, prepared⟩
  · exact Or.inr ⟨Or.inr later, h.commands_eq ▸ prepared⟩

end Takes

theorem submit_takes {d d' : ScriptRunner} {h : Handle} {receipt : Receipt}
    (served : d.submit h = (d', receipt)) : d.Takes [h] d' := by
  obtain ⟨e, -, rfl, -⟩ | ⟨commands, found, rfl, -⟩ := submit_cases served
  · exact .refl _ [h]
  · refine ⟨rfl, rfl, rfl, fun job hjob => ?_⟩
    rw [List.mem_append, List.mem_singleton] at hjob
    refine hjob.imp_right ?_
    rintro rfl
    exact ⟨List.mem_singleton_self h, found⟩

end ScriptRunner

theorem Exchange.takes {ν : Type} [Validator ν] {counts : RowCounts} {k : Nat}
    {x y : Outside ScriptRunner ν} {ms : List Moment} (exchange : Exchange counts k x ms y) :
    x.dispatcher.Takes (ms.filterMap (·.request.handle?)) y.dispatcher := by
  induction exchange with
  | nil x => exact .refl _ _
  | submit served _ ih => exact (ScriptRunner.submit_takes served).trans ih
  | validate a subject judged _ ih => exact ih

theorem Passage.not_submitted {ms : List Mark} {r : Option Progress} (h : Passage none ms r) :
    .submitted ∉ ms := by
  generalize start : (none : Option Progress) = p at h
  induction h with
  | nil p => exact List.not_mem_nil
  | cons head _ ih =>
    cases head with
    | start => cases start
    | settle o => cases start
    | late o idle => simpa using ih start

/-- The unit ends as its scripts say, run in some world. -/
def ScriptJob.Ends {ω : Type} (execute : ω → String → ω × ScriptResult) (job : ScriptJob)
    (result : JobResult) : Prop :=
  ∃ world, result = .of job.handle.action (runCommands execute world "" job.commands).2

namespace Scheduler

section
variable {σ δ ν : Type} [NameStore σ] [Dispatcher δ] [Validator ν]

theorem mem_population_of_submitted (s : Scheduler σ δ ν) (wf : ∀ t ∈ s.tasks, t.WellFormed) (c : Call)
    {h : Handle} (submitted : h ∈ (s.moments c).filterMap (·.request.handle?)) :
    h ∈ population s.tasks := by
  have proper := (perform_evolves (w := .any) s wf c fun _ _ => trivial).2
  have same := congrArg (List.filterMap Request.handle?) (asked_requests fun m hm => (proper m hm).2)
  rw [List.filterMap_map, List.filterMap_map] at same
  have submitted' : h ∈ (asked 0 (s.moments c)).filterMap (·.2.handle?) := same ▸ submitted
  obtain ⟨q, hq, given⟩ := List.mem_filterMap.mp submitted'
  obtain ⟨named, name⟩ := s.asked_named wf c q hq
  have owner : q.2.owner = h.owner := by
    obtain ⟨t, q⟩ := q
    cases q with
    | submit g receipt => exact congrArg Handle.owner (Option.some.inj given)
    | validate i a verdict => cases given
  have marked : .submitted ∈ (asked 0 (s.moments c)).flatMap fun q => q.2.marks h.cell q.1 := by
    refine List.mem_flatMap.mpr ⟨q, hq, ?_⟩
    obtain ⟨t, q⟩ := q
    cases q with
    | submit g receipt =>
      obtain rfl := Option.some.inj given
      rw [Request.marks, if_pos rfl]
      exact List.mem_cons_self
    | validate i a verdict => cases given
  have passage := perform_passage s wf c h.cell
  -- a passage from nothing has no submission in it, so the unit is there to begin with
  cases read : s.progressAt? h.cell with
  | none => exact absurd marked (read ▸ passage).not_submitted
  | some p =>
    obtain ⟨t, at_h, found⟩ := Option.bind_eq_some_iff.mp read
    obtain ⟨b, hb, action, u, hu, id, -⟩ := Task.mem_of_unitProgress? found
    rw [owner, List.getElem?_map, show s.tasks[h.owner]? = some t from at_h, Option.map_some] at named
    have unit : u.id = h.unit := id
    exact mem_population.mpr ⟨t, at_h, (name h given).trans (Option.some.inj named).symm, b, hb, action,
      unit ▸ List.mem_map_of_mem hu⟩

end

/-! ## Steps -/

def countsAfter (counts : RowCounts) (h : Handle) (result : JobResult) : RowCounts :=
  match h.action.measures?, result.count with
  | some side, some n => counts.record ⟨h.task, side, h.unit⟩ n
  | _, _ => counts

theorem complete_eq {σ δ ν : Type} (s : Scheduler σ δ ν) (h : Handle) (result : JobResult) :
    s.complete h result =
      { s with
        tasks := s.tasks.modify h.owner fun t => (t.finish h.action h.unit result.outcome).1
        counts := countsAfter s.counts h result } := by
  unfold complete countsAfter
  cases h.action.measures? with
  | none => rw [finish_eq]
  | some side =>
    cases result.count with
    | none => rw [finish_eq]
    | some n =>
      rw [finish_eq]
      rfl

theorem complete_progressAt? {σ δ ν : Type} (s : Scheduler σ δ ν) (h : Handle) (result : JobResult) (c : Cell) :
    (s.complete h result).progressAt? c =
      if h.cell = c ∧ s.progressAt? c = some .running then some result.outcome.progress
      else s.progressAt? c := by
  rw [← finish_progressAt?, complete_eq, finish_eq]
  rfl

section
variable {σ ν : Type} [NameStore σ] [Validator ν]

def withRunning (s : Scheduler σ ScriptRunner ν) (jobs : List ScriptJob) : Scheduler σ ScriptRunner ν :=
  { s with dispatcher := { s.dispatcher with running := jobs } }

/-- A call, or a unit on its way ends, with a result that `ends` allows for it, or what is still on
its way is given up. -/
inductive JobStep (ends : ScriptJob → JobResult → Prop) (s : Scheduler σ ScriptRunner ν) :
    Scheduler σ ScriptRunner ν → Prop
  | call (c : Call) : JobStep ends s (s.perform c)
  | complete {before after : List ScriptJob} {job : ScriptJob} {result : JobResult}
      (way : s.dispatcher.running = before ++ job :: after) (ended : ends job result) :
      JobStep ends s ((s.withRunning (before ++ after)).complete job.handle result)
  | shutdown : JobStep ends s s.shutdown

def JobRun (ends : ScriptJob → JobResult → Prop) :
    Scheduler σ ScriptRunner ν → Scheduler σ ScriptRunner ν → Prop :=
  Relation.ReflTransGen (JobStep ends)

/-- Each unit on its way is one of `units`, with the command lines that `first` has for it, and so
will be the next. -/
structure Employs (first : ScriptRunner) (units : List Handle) (d : ScriptRunner) : Prop where
  commands : d.commands? = first.commands?
  running : ∀ job ∈ d.running,
    job.handle ∈ units ∧ first.commands? job.handle.toUnitKey = some job.commands

section
variable {ends : ScriptJob → JobResult → Prop} {s s' : Scheduler σ ScriptRunner ν}
  (wf : ∀ t ∈ s.tasks, t.WellFormed)
include wf

theorem JobStep.evolves {w : Conduct} (settles : ∀ owner a id o, w.settles owner a id o)
    (conduct : ∀ c, ∀ m ∈ s.moments c, w.answers m.request) (step : JobStep ends s s') :
    Evolves w 0 s.tasks s'.tasks := by
  cases step with
  | call c => exact (perform_evolves s wf c (conduct c)).1
  | @complete before after job result way ended =>
    have settled := finish_evolves (w := w) s wf job.handle result.outcome (settles ..)
    rw [complete_eq]
    rwa [finish_eq] at settled
  | shutdown => exact .refl ..

theorem Employs.step {first : ScriptRunner} {units : List Handle} (h : Employs first units s.dispatcher)
    (all : population s.tasks = units) (step : JobStep ends s s') :
    Employs first units s'.dispatcher := by
  cases step with
  | call c =>
    have takes := (perform_exchange s wf c).takes
    refine ⟨takes.commands_eq.trans h.commands, fun job hjob => ?_⟩
    obtain old | ⟨taken, prepared⟩ := takes.running job hjob
    · exact h.running job old
    · exact ⟨all ▸ mem_population_of_submitted s wf c taken, h.commands ▸ prepared⟩
  | @complete before after job result way ended =>
    rw [complete_eq]
    refine ⟨h.commands, fun job' hjob' => h.running job' ?_⟩
    rw [way]
    exact (List.sublist_cons_self job after).append_left before |>.subset hjob'
  | shutdown => exact ⟨h.commands, List.forall_mem_nil _⟩

end

/-! ## All scripts in a row -/

omit [NameStore σ] [Validator ν] in
theorem complete_withRunning (s : Scheduler σ ScriptRunner ν) (jobs : List ScriptJob) (h : Handle)
    (result : JobResult) :
    (s.withRunning jobs).complete h result = (s.complete h result).withRunning jobs := by
  rw [complete_eq, complete_eq]
  rfl

/-- Running the scripts of all units on their way is one of the runs in which units end as their
scripts say. -/
theorem runJobs_run {ω : Type} (execute : ω → String → ω × ScriptResult) (world : ω)
    (s : Scheduler σ ScriptRunner ν) :
    JobRun (ScriptJob.Ends execute) s (s.runJobs execute world).2 := by
  -- the runner is emptied at the start, while in the run each unit leaves when it ends
  suffices run : ∀ (jobs : List ScriptJob) (world : ω) (s : Scheduler σ ScriptRunner ν),
      JobRun (ScriptJob.Ends execute) (s.withRunning jobs) (jobs.foldl
        (fun left job => left.2.runJob execute left.1 job) (world, s.withRunning [])).2 from
    run s.dispatcher.running world s
  intro jobs
  induction jobs with
  | nil => exact fun _ _ => .refl
  | cons job jobs ih =>
    intro world s
    have ended : job.Ends execute _ := ⟨world, rfl⟩
    have way : (s.withRunning (job :: jobs)).dispatcher.running = [] ++ job :: jobs := rfl
    have first := JobStep.complete way ended
    have way' : (s.withRunning (job :: jobs)).withRunning jobs = s.withRunning jobs := rfl
    rw [List.nil_append, way', complete_withRunning] at first
    have rest := ih (runCommands execute world "" job.commands).1 (s.complete job.handle
      (.of job.handle.action (runCommands execute world "" job.commands).2))
    rw [← complete_withRunning s []] at rest
    exact .head first rest

end

end Scheduler

end TableMigration
