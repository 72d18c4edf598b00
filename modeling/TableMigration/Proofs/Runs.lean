import TableMigration.Dispatch.Policy
import TableMigration.Proofs.Rounds
import TableMigration.Validation.Fixed

/-!
# Runs of the scheduler

A run is any sequence of calls, between which units that were handed out are settled and the
outside moves on. Calls that stop at a fault are steps like others: a scheduler is what such a call
leaves behind. Along a run the tasks only move, each by itself.
-/

namespace TableMigration

namespace Scheduler

/-! ## Starting, observing, settling -/

section
variable {σ δ ν : Type} {w : Conduct}

theorem new_keeps {P : Task → Prop} {tasks : List Task} (fresh : ∀ t ∈ tasks, P t)
    (resumed : ∀ t ∈ tasks, P t.assumeSucceeded) (plan : Plan) (gate : Gate) (log : FailoverLog σ)
    (d : δ) (v : ν) : ∀ t ∈ (Scheduler.new plan tasks gate log d v).tasks, P t := by
  refine List.forall_mem_map.mpr fun t ht => ?_
  by_cases h : log.isFinished t.name = true
  · rw [if_pos h]; exact resumed t ht
  · rw [if_neg h]; exact fresh t ht

theorem new_wellFormed {tasks : List Task} (fresh : ∀ t ∈ tasks, t.Fresh) (plan : Plan) (gate : Gate)
    (log : FailoverLog σ) (d : δ) (v : ν) :
    ∀ t ∈ (Scheduler.new plan tasks gate log d v).tasks, t.WellFormed :=
  new_keeps (fun t ht => (fresh t ht).wellFormed)
    (fun t ht => (fresh t ht).wellFormed.of_shape (Task.shape_assumeSucceeded t)) plan gate log d v

theorem finish_eq (s : Scheduler σ δ ν) (h : Handle) (o : Outcome) : (s.finish h o).1 =
    { s with tasks := s.tasks.modify h.owner fun t => (t.finish h.action h.unit o).1 } := by
  unfold finish
  cases ht : s.tasks[h.owner]? with
  | none => rw [List.modify_eq_self (List.getElem?_eq_none_iff.mp ht)]
  | some t =>
    refine congrArg (fun tasks => { s with tasks }) (List.ext_getElem? fun i => ?_)
    rw [List.getElem?_modify, List.getElem?_set']
    by_cases hi : h.owner = i
    · subst hi
      simp [ht]
    · simp [hi]

theorem finishAll_eq (s : Scheduler σ δ ν) (hs : List Handle) (o : Outcome) :
    s.finishAll hs o = { s with tasks := (s.finishAll hs o).tasks } := by
  unfold finishAll
  induction hs generalizing s with
  | nil => rfl
  | cons h hs ih => rw [List.foldl_cons, ih, finish_eq]

theorem finish_origin {s : Scheduler σ δ ν} {h : Handle} {o : Outcome} {i : Nat} {t' : Task}
    (at_i : (s.finish h o).1.tasks[i]? = some t') :
    ∃ t, s.tasks[i]? = some t ∧ (t' = t ∨ t' = (t.finish h.action h.unit o).1) := by
  rw [finish_eq, List.getElem?_modify] at at_i
  obtain ⟨t, ht, rfl⟩ := Option.map_eq_some_iff.mp at_i
  refine ⟨t, ht, ?_⟩
  by_cases here : h.owner = i
  · rw [if_pos here]
    exact Or.inr rfl
  · rw [if_neg here]
    exact Or.inl rfl

theorem new_map_eq_of_resumed {α : Type} {f : Task → α} (hf : ∀ t, f t.assumeSucceeded = f t)
    (plan : Plan) (tasks : List Task) (gate : Gate) (log : FailoverLog σ) (d : δ) (v : ν) :
    (Scheduler.new plan tasks gate log d v).tasks.map f = tasks.map f := by
  refine (List.map_map ..).trans (List.map_congr_left fun t _ => ?_)
  rw [Function.comp_apply]
  by_cases h : log.isFinished t.name = true
  · rw [if_pos h]; exact hf t
  · rw [if_neg h]

theorem new_map_eq {α : Type} {f : Task → α} (hf : ∀ {t t' : Task}, t'.shape = t.shape → f t' = f t)
    (plan : Plan) (tasks : List Task) (gate : Gate) (log : FailoverLog σ) (d : δ) (v : ν) :
    (Scheduler.new plan tasks gate log d v).tasks.map f = tasks.map f :=
  new_map_eq_of_resumed (fun t => hf (Task.shape_assumeSucceeded t)) plan tasks gate log d v

theorem new_names (plan : Plan) (tasks : List Task) (gate : Gate) (log : FailoverLog σ) (d : δ) (v : ν) :
    (Scheduler.new plan tasks gate log d v).tasks.map (·.name) = tasks.map (·.name) :=
  new_map_eq_of_resumed (fun _ => rfl) plan tasks gate log d v

theorem finish_evolves (s : Scheduler σ δ ν) (wf : ∀ t ∈ s.tasks, t.WellFormed) (h : Handle)
    (o : Outcome) (settles : w.settles h.owner h.action h.unit o) :
    Evolves w 0 s.tasks (s.finish h o).1.tasks := by
  rw [finish_eq]
  refine ⟨List.length_modify .., fun i t ht => ?_⟩
  by_cases hi : h.owner = i
  · subst hi
    rw [List.getElem?_modify_eq, ht, Nat.zero_add]
    exact ⟨_, rfl, Task.moves_finish (wf t (List.mem_of_getElem? ht)) settles⟩
  · rw [List.getElem?_modify_ne _ _ hi, ht]
    exact ⟨t, rfl, .refl⟩

theorem finishAll_evolves {s : Scheduler σ δ ν} (wf : ∀ t ∈ s.tasks, t.WellFormed) (hs : List Handle)
    (o : Outcome) : Evolves .any 0 s.tasks (s.finishAll hs o).tasks := by
  unfold finishAll
  induction hs generalizing s with
  | nil => exact .refl ..
  | cons h hs ih =>
    have first := finish_evolves (w := .any) s wf h o trivial
    exact first.trans (ih (first.wellFormed wf))

section
variable [NameStore σ]

theorem observeTasks_eq (log : FailoverLog σ) (report : Report) (ts : List Task) :
    (observeTasks log report ts).1 = ts.map Task.refresh := by
  induction ts generalizing log report with
  | nil => rfl
  | cons t ts ih => exact congrArg₂ List.cons (Round.settleTask_task t log report) (ih _ _)

theorem observe_tasks (s : Scheduler σ δ ν) (report : Report) :
    (s.observe report).1.tasks = s.tasks.map Task.refresh :=
  observeTasks_eq s.log report s.tasks

theorem observe_evolves (s : Scheduler σ δ ν) (report : Report) :
    Evolves w 0 s.tasks (s.observe report).1.tasks := by
  rw [observe_tasks]
  refine ⟨List.length_map _, fun i t ht => ⟨t.refresh, ?_, .single .refresh⟩⟩
  rw [List.getElem?_map, ht, Option.map_some]

end

end

/-! ## Calls and steps -/

/-- A call on a scheduler; a report that is handed in is added to. -/
inductive Call
  | tick
  | observe (report : Report)
  | schedule (a : Action) (report : Report)

section
variable {σ δ ν : Type} [NameStore σ] [Dispatcher δ] [Validator ν]

def perform (s : Scheduler σ δ ν) : Call → Scheduler σ δ ν
  | .tick => s.tick.1
  | .observe report => (s.observe report).1
  | .schedule a report => (s.schedule a report).1

/-! ## Moments of a call -/

def windowMoments (s : Scheduler σ δ ν) (a : Action) (report : Report) (window : Window) :
    List Moment :=
  Round.moments a 0 ⟨window, s.log, s.dispatcher, s.validator, s.counts, s.handles, report⟩ s.tasks

def scheduleMoments (s : Scheduler σ δ ν) (a : Action) (report : Report) : List Moment :=
  match s.gate.admission a s.tasks with
  | .ungated => s.windowMoments a report .unbounded
  | .opened n c => s.windowMoments a report (.bounded n c)
  | .saturated _ _ | .unconfigured => []

def scheduleAllMoments (s : Scheduler σ δ ν) (report : Report) : List Action → List Moment
  | [] => []
  | a :: rest =>
    s.scheduleMoments a report ++
      match s.schedule a report with
      | (_, _, some _) => []
      | (s, report, none) => s.scheduleAllMoments report rest

def moments (s : Scheduler σ δ ν) : Call → List Moment
  | .tick =>
    match s.observe .empty with
    | (_, _, true) => []
    | (s, report, false) => s.scheduleAllMoments report s.plan.actions
  | .observe _ => []
  | .schedule a report => s.scheduleMoments a report

/-! ## Steps -/

/-- One step of a run in which the outside keeps to `w`. -/
inductive Step (w : Conduct) (s : Scheduler σ δ ν) : Scheduler σ δ ν → Prop
  | call (c : Call) (conduct : ∀ m ∈ s.moments c, w.answers m.request) : Step w s (s.perform c)
  /-- A unit that was handed out is settled, unless it was before. -/
  | settle {h : Handle} (given : h ∈ s.handles) {o : Outcome}
      (settles : w.settles h.owner h.action h.unit o) : Step w s (s.finish h o).1
  /-- Dispatcher, validator and row counts change by themselves. -/
  | outside (d : δ) (v : ν) (counts : RowCounts) :
      Step w s { s with dispatcher := d, validator := v, counts }

def Reaches (w : Conduct) : Scheduler σ δ ν → Scheduler σ δ ν → Prop :=
  Relation.ReflTransGen (Step w)

theorem Reaches.mono {w w' : Conduct} (answers : ∀ q, w.answers q → w'.answers q)
    (settles : ∀ owner a id o, w.settles owner a id o → w'.settles owner a id o)
    {s s' : Scheduler σ δ ν} (run : Reaches w s s') : Reaches w' s s' := by
  refine Relation.ReflTransGen.mono (fun s s' step => ?_) _ _ run
  cases step with
  | call c conduct => exact .call c fun m hm => answers m.request (conduct m hm)
  | settle given h => exact .settle given (settles _ _ _ _ h)
  | outside d v counts => exact .outside d v counts

theorem schedule_cases (s : Scheduler σ δ ν) (a : Action) (report : Report) :
    (∃ window, s.schedule a report = s.admitWith a report window ∧
      s.scheduleMoments a report = s.windowMoments a report window) ∨
    ∃ reason, s.schedule a report =
        (s, { report with gated := report.gated ++ [(a, reason)] }, none) ∧
      s.scheduleMoments a report = [] := by
  unfold schedule scheduleMoments
  cases s.gate.admission a s.tasks with
  | ungated => exact Or.inl ⟨.unbounded, rfl, rfl⟩
  | opened n c => exact Or.inl ⟨.bounded n c, rfl, rfl⟩
  | saturated n c => exact Or.inr ⟨.saturated n c, rfl, rfl⟩
  | unconfigured => exact Or.inr ⟨.unconfigured, rfl, rfl⟩

theorem tick_cases (s : Scheduler σ δ ν) :
    ((∀ t ∈ (s.observe .empty).1.tasks, t.isTerminal = true) ∧ s.moments .tick = [] ∧
      s.tick = ((s.observe .empty).1, .ok { (s.observe .empty).2.1 with
        allFinished := true
        snapshot := (s.observe .empty).1.snapshot })) ∨
    ∃ s' result, (s.observe .empty).1.scheduleAll (s.observe .empty).2.1 s.plan.actions = (s', result) ∧
      s.moments .tick = (s.observe .empty).1.scheduleAllMoments (s.observe .empty).2.1 s.plan.actions ∧
      s.tick = (s', result.map fun report => { report with snapshot := s'.snapshot }) := by
  have all : (s.observe .empty).2.2 = (s.observe .empty).1.tasks.all (·.isTerminal) := rfl
  have plan : (s.observe .empty).1.plan = s.plan := rfl
  rw [← plan]
  simp only [tick, moments]
  generalize s.observe .empty = out at all ⊢
  obtain ⟨s', report, finished⟩ := out
  cases finished with
  | true => exact Or.inl ⟨List.all_eq_true.mp all.symm, rfl, rfl⟩
  | false => exact Or.inr ⟨_, _, rfl, rfl, rfl⟩

theorem perform_keeps {P : Scheduler σ δ ν → Prop}
    (observe : ∀ s report, P s → P (s.observe report).1)
    (schedule : ∀ s a report, P s → P (s.schedule a report).1)
    {s : Scheduler σ δ ν} (hs : P s) (c : Call) : P (s.perform c) := by
  have all : ∀ (actions : List Action) (s : Scheduler σ δ ν) (report : Report), P s →
      P (s.scheduleAll report actions).1 := by
    intro actions
    induction actions with
    | nil => intro s report hs; exact hs
    | cons a rest ih =>
      intro s report hs
      have next := schedule s a report hs
      unfold scheduleAll
      split
      next h => rw [h] at next; exact next
      next h => rw [h] at next; exact ih _ _ next
  cases c with
  | tick =>
    have seen := observe s .empty hs
    rw [perform]
    rcases s.tick_cases with ⟨-, -, he⟩ | ⟨s', result, done, -, he⟩
    · rw [he]
      exact seen
    · have later := all s.plan.actions _ (s.observe .empty).2.1 seen
      rw [done] at later
      rw [he]
      exact later
  | observe report => exact observe s report hs
  | schedule a report => exact schedule s a report hs

/-! ## Tasks along a run -/

section
variable {w : Conduct}

theorem window_evolves (s : Scheduler σ δ ν) (wf : ∀ t ∈ s.tasks, t.WellFormed) (a : Action)
    (report : Report) (window : Window)
    (conduct : ∀ m ∈ s.windowMoments a report window, w.answers m.request) :
    Evolves w 0 s.tasks (s.admitWith a report window).1.tasks ∧
      ∀ m ∈ s.windowMoments a report window, Evolves w 0 s.tasks m.tasks ∧ m.Proper := by
  obtain ⟨moves, asked⟩ := Round.run_evolves a 0
    ⟨window, s.log, s.dispatcher, s.validator, s.counts, s.handles, report⟩ s.tasks wf conduct
  refine ⟨moves, fun m hm => ⟨(asked m hm).1, ?_⟩⟩
  obtain ⟨-, i, t, ht, proper⟩ := asked m hm
  rw [Nat.zero_add] at proper
  obtain rfl := proper.owner_eq
  obtain rfl := proper.action_eq
  exact ⟨t, ht, proper⟩

theorem schedule_evolves (s : Scheduler σ δ ν) (wf : ∀ t ∈ s.tasks, t.WellFormed) (a : Action)
    (report : Report) (conduct : ∀ m ∈ s.scheduleMoments a report, w.answers m.request) :
    Evolves w 0 s.tasks (s.schedule a report).1.tasks ∧
      ∀ m ∈ s.scheduleMoments a report, Evolves w 0 s.tasks m.tasks ∧ m.Proper := by
  rcases s.schedule_cases a report with ⟨window, he, hm⟩ | ⟨reason, he, hm⟩
  · rw [hm] at conduct ⊢
    rw [he]
    exact window_evolves s wf a report window conduct
  · rw [he, hm]
    exact ⟨.refl .., List.forall_mem_nil _⟩

/-- What holds of no actions, and is carried over the first action, whether it goes through or stops at a
fault, holds of all the actions of a plan. -/
theorem scheduleAll_induction {R : Scheduler σ δ ν → Report → List Action → List Moment →
      Scheduler σ δ ν × Except Fault Report → Prop}
    (nil : ∀ s report, R s report [] [] (s, .ok report))
    (next : ∀ {s a rest report ms out}, (∀ t ∈ s.tasks, t.WellFormed) → (s.schedule a report).2.2 = none →
      R (s.schedule a report).1 (s.schedule a report).2.1 rest ms out →
      R s report (a :: rest) (s.scheduleMoments a report ++ ms) out)
    (stop : ∀ {s a rest report f}, (∀ t ∈ s.tasks, t.WellFormed) → (s.schedule a report).2.2 = some f →
      R s report (a :: rest) (s.scheduleMoments a report) ((s.schedule a report).1, .error f))
    (actions : List Action) {s : Scheduler σ δ ν} (wf : ∀ t ∈ s.tasks, t.WellFormed) (report : Report) :
    R s report actions (s.scheduleAllMoments report actions) (s.scheduleAll report actions) := by
  induction actions generalizing s report with
  | nil => exact nil s report
  | cons a rest ih =>
    have moves := (schedule_evolves (w := .any) s wf a report fun _ _ => trivial).1
    have going := fun done => next wf done (ih (moves.wellFormed wf) (s.schedule a report).2.1)
    have halting := fun f => @stop s a rest report f wf
    rw [scheduleAllMoments, scheduleAll]
    generalize s.schedule a report = out at going halting
    obtain ⟨s', report', fault⟩ := out
    cases fault with
    | some f =>
      rw [List.append_nil]
      exact halting f rfl
    | none => exact going rfl

section
variable {R : Scheduler σ δ ν → List Moment → Scheduler σ δ ν → Prop} (refl : ∀ s, R s [] s)
  (trans : ∀ {s s' s'' ms ms'}, R s ms s' → R s' ms' s'' → R s (ms ++ ms') s'')
  (schedule : ∀ s a report, (∀ t ∈ s.tasks, t.WellFormed) →
    R s (s.scheduleMoments a report) (s.schedule a report).1)
include refl trans schedule

theorem scheduleAll_relates (actions : List Action) {s : Scheduler σ δ ν} (wf : ∀ t ∈ s.tasks, t.WellFormed)
    (report : Report) :
    R s (s.scheduleAllMoments report actions) (s.scheduleAll report actions).1 := by
  refine scheduleAll_induction (R := fun s _ _ ms out => R s ms out.1) (fun s _ => refl s) ?_ ?_ actions wf report
  · exact fun wf _ rest => trans (schedule _ _ _ wf) rest
  · exact fun wf _ => schedule _ _ _ wf

/-- What holds where nothing is done, of observing and of scheduling, and can be put together, holds of
every call. -/
theorem perform_relates (observe : ∀ s report, (∀ t ∈ s.tasks, t.WellFormed) → R s [] (s.observe report).1)
    {s : Scheduler σ δ ν} (wf : ∀ t ∈ s.tasks, t.WellFormed) (c : Call) : R s (s.moments c) (s.perform c) := by
  cases c with
  | observe report => exact observe s report wf
  | schedule a report => exact schedule s a report wf
  | tick =>
    have seen := observe s .empty wf
    have moves := observe_evolves (w := .any) s .empty
    rw [perform]
    rcases s.tick_cases with ⟨-, hm, he⟩ | ⟨s', result, done, hm, he⟩
    · rw [he, hm]
      exact seen
    · have later := scheduleAll_relates refl trans schedule s.plan.actions (moves.wellFormed wf)
        (s.observe .empty).2.1
      rw [done] at later
      rw [he, hm]
      exact trans seen later

end

theorem perform_evolves (s : Scheduler σ δ ν) (wf : ∀ t ∈ s.tasks, t.WellFormed) (c : Call)
    (conduct : ∀ m ∈ s.moments c, w.answers m.request) :
    Evolves w 0 s.tasks (s.perform c).tasks ∧
      ∀ m ∈ s.moments c, Evolves w 0 s.tasks m.tasks ∧ m.Proper := by
  refine perform_relates (R := fun s ms s' => (∀ m ∈ ms, w.answers m.request) → Evolves w 0 s.tasks s'.tasks ∧
    ∀ m ∈ ms, Evolves w 0 s.tasks m.tasks ∧ m.Proper) ?_ ?_ ?_ ?_ wf c conduct
  · exact fun s _ => ⟨.refl .., List.forall_mem_nil _⟩
  · intro s s' s'' ms ms' first next conduct
    obtain ⟨here, there⟩ := List.forall_mem_append.mp conduct
    obtain ⟨moves, asked⟩ := first here
    obtain ⟨moves', asked'⟩ := next there
    refine ⟨moves.trans moves', List.forall_mem_append.mpr ⟨asked, fun m hm => ?_⟩⟩
    exact ⟨moves.trans (asked' m hm).1, (asked' m hm).2⟩
  · exact fun s a report wf conduct => schedule_evolves s wf a report conduct
  · exact fun s report _ _ => ⟨observe_evolves s report, List.forall_mem_nil _⟩

theorem Step.evolves {s s' : Scheduler σ δ ν} (wf : ∀ t ∈ s.tasks, t.WellFormed)
    (h : Step w s s') : Evolves w 0 s.tasks s'.tasks := by
  cases h with
  | call c conduct => exact (perform_evolves s wf c conduct).1
  | settle given settles => exact finish_evolves s wf _ _ settles
  | outside d v counts => exact .refl ..

theorem Reaches.evolves {s s' : Scheduler σ δ ν} (wf : ∀ t ∈ s.tasks, t.WellFormed)
    (h : Reaches w s s') : Evolves w 0 s.tasks s'.tasks := by
  induction h with
  | refl => exact .refl ..
  | tail _ step ih => exact ih.trans (step.evolves (ih.wellFormed wf))

end

end

end Scheduler

/-! ## A run of one table -/

namespace OneTable

def plan : Plan := ⟨.hive, [.createTable, .compareResults], by decide, by decide⟩

def task : Task where
  name := "db.t"
  destination := none
  stages := [⟨.createTable, .new, [⟨"p=1", .new⟩, ⟨"p=2", .new⟩]⟩, ⟨.compareResults, .new, []⟩]
  progress := .new

theorem task_fresh : task.Fresh :=
  ⟨plan, fun a => if a = .createTable then some ["p=1", "p=2"] else none, rfl⟩

/-- Two units to create the table under a ceiling of one, all dispatched by the same rule. -/
def start (c : Completion) : Scheduler MemoryStore PolicyDispatcher FixedValidator :=
  .new plan [task] (.uniform plan 1) (.openOn ⟨[]⟩) (.ofPolicy ⟨c, .empty, [], []⟩) ⟨[], [], []⟩

theorem tasks_fresh : ∀ t ∈ [task], t.Fresh :=
  List.forall_mem_singleton.mpr task_fresh

theorem planned : ∀ t ∈ [task], ∀ a ∈ t.actions, a ∈ plan.actions := by
  decide

theorem ceilings : ∀ a ∈ plan.gated, ∃ c, (Gate.uniform plan 1).ceiling a = some c ∧ 1 ≤ c :=
  List.forall_mem_singleton.mpr ⟨1, rfl, Nat.le_refl 1⟩

def unit (id : String) : Handle := ⟨⟨"db.t", .createTable, id⟩, 0⟩

end OneTable

namespace OneSlot

def second : Task := { OneTable.task with name := "db.u" }

theorem tasks_fresh : ∀ t ∈ [OneTable.task, second], t.Fresh :=
  List.forall_mem_cons.mpr ⟨OneTable.task_fresh, List.forall_mem_singleton.mpr
    ⟨OneTable.plan, fun a => if a = .createTable then some ["p=1", "p=2"] else none, rfl⟩⟩

theorem planned : ∀ t ∈ [OneTable.task, second], ∀ a ∈ t.actions, a ∈ OneTable.plan.actions := by
  decide

/-- Two tables of two units each under a ceiling of one, all dispatched by the same rule. -/
def following (c : Completion) : Scheduler MemoryStore PolicyDispatcher FixedValidator :=
  .new OneTable.plan [OneTable.task, second] (.uniform OneTable.plan 1) (.openOn ⟨[]⟩)
    (.ofPolicy ⟨c, .empty, [], []⟩) ⟨[], [], []⟩

/-- Both units of the first table are settled, and those of the second handed out. -/
def later : Scheduler MemoryStore PolicyDispatcher FixedValidator :=
  (((following .hold).tick.1.finish (OneTable.unit "p=1") .succeeded).1.finish (OneTable.unit "p=2")
    .succeeded).1.tick.1

end OneSlot

end TableMigration
