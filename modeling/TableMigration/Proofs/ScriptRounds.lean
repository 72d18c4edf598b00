import TableMigration.Proofs.Liveness
import TableMigration.Proofs.Scripted

/-!
# Rounds of scripts come to an end

After a tick whatever runs is on its way to the end of its scripts, and once all scripts have run nothing
runs any more. So ticks between which all scripts run are the beats of a loop without faults, and such a
loop comes to its end.
-/

namespace TableMigration

/-! ## What runs is on its way -/

theorem Exchange.taken {ν : Type} [Validator ν] {counts : RowCounts} {k : Nat}
    {x y : Outside ScriptRunner ν} {ms : List Moment} (exchange : Exchange counts k x ms y) :
    y.dispatcher.running.map (·.handle) =
      x.dispatcher.running.map (·.handle) ++ ms.filterMap (·.request.running?) := by
  induction exchange with
  | nil x => exact (List.append_nil _).symm
  | @submit x y ms ts h d receipt served _ ih =>
    rw [ih]
    obtain ⟨e, -, rfl, rfl⟩ | ⟨commands, -, rfl, rfl⟩ := ScriptRunner.submit_cases served
    · rfl
    · simp [Request.running?]
  | validate a subject judged _ ih => exact ih

theorem Fate.faultless {f : Fate} {q : Request} (h : f.conduct.answers q) : Conduct.faultless.answers q := by
  cases q with
  | submit g receipt =>
    cases receipt with
    | running => trivial
    | finished o => trivial
    | refused e => exact h
  | validate owner a verdict =>
    obtain rfl : verdict = .ofBool (f.verdict owner) := h
    cases f.verdict owner <;> trivial

namespace Scheduler

variable {σ ν ω : Type}

theorem Reaches.faultless {δ : Type} [NameStore σ] [Dispatcher δ] [Validator ν] {f : Fate}
    {s s' : Scheduler σ δ ν} (run : Reaches f.conduct s s') : Reaches .faultless s s' :=
  run.mono (fun _ => Fate.faultless) fun _ _ _ _ _ => trivial

theorem perform_taken [NameStore σ] [Validator ν] (s : Scheduler σ ScriptRunner ν)
    (wf : ∀ t ∈ s.tasks, t.WellFormed) (still : ∀ t ∈ s.tasks, t.Still) (c : Call)
    (conduct : ∀ m ∈ s.moments c, Conduct.faultless.answers m.request) {cell : Cell}
    (running : (s.perform c).progressAt? cell = some .running) :
    cell ∈ (s.perform c).dispatcher.running.map (·.handle.cell) := by
  have proper := (perform_evolves (w := .any) s wf c fun _ _ => trivial).2
  have starts : Starts cell (s.progressAt? cell) ((asked 0 (s.moments c)).filterMap (·.2.running?))
      ((s.perform c).progressAt? cell) := by
    refine .of_requests (fun q hq => ?_) (perform_passage s wf c cell)
    obtain ⟨m, hm, same, -⟩ := request_of_mem_asked hq
    exact same ▸ conduct m hm
  have idle : s.progressAt? cell ≠ some .running := by
    intro running
    obtain ⟨t, at_c, read⟩ := Option.bind_eq_some_iff.mp running
    obtain ⟨b, hb, -, u, hu, -, runs⟩ := Task.mem_of_unitProgress? read
    exact still t (List.mem_of_getElem? at_c) b hb u hu runs
  -- so it was handed out in the call, and the runner has taken what was handed out
  have taken := (starts.running.mp running).resolve_left idle
  have same := congrArg (List.filterMap Request.running?) (asked_requests fun m hm => (proper m hm).2)
  rw [List.filterMap_map, List.filterMap_map] at same
  have exchanged : (s.perform c).dispatcher.running.map (·.handle) = _ := (perform_exchange s wf c).taken
  obtain ⟨h, hh, rfl⟩ := List.mem_map.mp taken
  have mem : h ∈ (s.perform c).dispatcher.running.map (·.handle) := by
    rw [exchanged]
    exact List.mem_append_right _ (same ▸ hh)
  obtain ⟨job, hjob, rfl⟩ := List.mem_map.mp mem
  exact List.mem_map.mpr ⟨job, hjob, rfl⟩

theorem running_of_complete {s : Scheduler σ ScriptRunner ν} {h : Handle} {result : JobResult} {c : Cell}
    (running : (s.complete h result).progressAt? c = some .running) :
    s.progressAt? c = some .running ∧ h.cell ≠ c := by
  rw [complete_progressAt?] at running
  split at running
  · exact absurd (Option.some.inj running) result.outcome.progress_ne_running
  next idle => exact ⟨running, fun here => idle ⟨here, running⟩⟩

theorem runJobs_idle (s : Scheduler σ ScriptRunner ν) (execute : ω → String → ω × ScriptResult) (world : ω)
    (way : ∀ c, s.progressAt? c = some .running → c ∈ s.dispatcher.running.map (·.handle.cell)) (c : Cell) :
    (s.runJobs execute world).2.progressAt? c ≠ some .running := by
  -- each unit on its way leaves what still runs on the way behind it
  suffices idle : ∀ (jobs : List ScriptJob) (world : ω) (s : Scheduler σ ScriptRunner ν),
      (s.progressAt? c = some .running → c ∈ jobs.map (·.handle.cell)) →
      (jobs.foldl (fun left job => left.2.runJob execute left.1 job) (world, s)).2.progressAt? c ≠
        some .running from
    idle s.dispatcher.running world { s with dispatcher := { s.dispatcher with running := [] } } (way c)
  intro jobs
  induction jobs with
  | nil => exact fun _ _ way running => List.not_mem_nil (way running)
  | cons job jobs ih =>
    intro world s way
    refine ih _ (s.complete job.handle _) fun running => ?_
    obtain ⟨before, other⟩ := running_of_complete running
    exact (List.mem_cons.mp (way before)).resolve_left fun same => other same.symm

/-! ## Rounds -/

/-- The scheduler before each tick of a loop, between whose ticks all scripts run. -/
def rounds [NameStore σ] [Validator ν] (execute : ω → String → ω × ScriptResult) (worlds : Nat → ω)
    (s : Scheduler σ ScriptRunner ν) : Nat → Scheduler σ ScriptRunner ν
  | 0 => s
  | n + 1 => ((rounds execute worlds s n).tick.1.runJobs execute (worlds n)).2

theorem rounds_run [NameStore σ] [Validator ν] (execute : ω → String → ω × ScriptResult)
    (worlds : Nat → ω) (s : Scheduler σ ScriptRunner ν) (n : Nat) :
    JobRun (ScriptJob.Ends execute) s (rounds execute worlds s n) := by
  induction n with
  | zero => exact .refl
  | succ n ih => exact (ih.tail (.call .tick)).trans (runJobs_run execute (worlds n) _)

section
variable [NameStore σ] {execute : ω → String → ω × ScriptResult} {results : String → ScriptResult}
  (fixed : ∀ world command, (execute world command).2 = results command)
include fixed

theorem Scripted.beat {first : ScriptRunner} {ts : List Task} (able : Countable first ts)
    {s : Scheduler σ ScriptRunner CountComparison} (h : Scripted results first ts s)
    (still : ∀ t ∈ s.tasks, t.Still) (world : ω) : Beat s (s.tick.1.runJobs execute world).2 := by
  have wf := h.tallied.evolves.wellFormed able.wellFormed
  have conduct : ∀ m ∈ s.moments .tick, Conduct.faultless.answers m.request :=
    fun m hm => Fate.faultless (h.answers able .tick m hm)
  have ticked := (h.step able fixed (.call .tick)).1
  have ran := (ticked.run able fixed (runJobs_run execute world s.tick.1)).2
  refine ⟨conduct, ran.faultless, fun g _ => ?_⟩
  exact runJobs_idle s.tick.1 execute world
    (fun c => s.perform_taken wf still .tick conduct) g.cell

variable {plan : Plan} {index : ScriptIndex} {tasks : List Task} (able : Comparable plan index tasks)
  {gate : Gate} (log : FailoverLog σ) (runners : Runners) (worlds : Nat → ω)
include able

theorem rounds_beat (n : Nat) : Beat (rounds execute worlds (ofScripts plan tasks gate log runners index) n)
    (rounds execute worlds (ofScripts plan tasks gate log runners index) (n + 1)) := by
  have fresh : ∀ t ∈ tasks, t.Fresh := fun t ht => (able.supplied t ht).1
  have countable := able.countable gate log runners
  have reached := fun n => (able.scripted gate log runners results).run countable fixed
    (rounds_run execute worlds (ofScripts plan tasks gate log runners index) n)
  have still : ∀ t ∈ (rounds execute worlds (ofScripts plan tasks gate log runners index) n).tasks, t.Still := by
    induction n with
    | zero => exact new_still fresh plan gate log _ _
    -- the round before has left nothing running of what was handed out
    | succ n ih =>
      have beat := (reached n).1.beat fixed countable ih (worlds n)
      exact ((reached (n + 1)).2.handed (new_handed fresh plan gate log _ _)).still beat.settled
  exact (reached n).1.beat fixed countable still (worlds n)

/-- Whatever the scripts do, the loop comes to a tick that finds all finished. -/
theorem rounds_finish (ceilings : ∀ a ∈ plan.gated, ∃ c, gate.ceiling a = some c ∧ 1 ≤ c) :
    ∃ n, (rounds execute worlds (ofScripts plan tasks gate log runners index) n).Finishes := by
  have fresh : ∀ t ∈ tasks, t.Fresh := fun t ht => (able.supplied t ht).1
  have planned : ∀ t ∈ tasks, ∀ a ∈ t.actions, a ∈ plan.actions := fun t ht a ha => able.planned t ht ▸ ha
  have first : rounds execute worlds (ofScripts plan tasks gate log runners index) 0 =
      ofScripts plan tasks gate log runners index := rfl
  obtain ⟨n, -, finishes⟩ := loop_finishes (new_runnable fresh planned ceilings log _ _)
    (new_handed fresh plan gate log _ _) (new_still fresh plan gate log _ _) first
    fun n => Or.inr (rounds_beat fixed able log runners worlds n)
  exact ⟨n, finishes⟩

end

end Scheduler

end TableMigration
