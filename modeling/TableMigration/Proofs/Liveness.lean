import Mathlib.Algebra.Ring.Nat
import TableMigration.Proofs.Handles
import TableMigration.Proofs.Turns

/-!
# Liveness

In a run without faults, with room for every action that a task may come to, there is no deadlock.
Once no unit runs, the stages of a task are done up to one that has failed or is entirely new, and
a new one of the first task that has not ended begins with the next tick. Each tick between which
all units are settled leaves one stage less that has not begun, so that their number bounds the
ticks it takes to finish.
-/

namespace TableMigration

namespace Stage

def Steady (s : Stage) : Prop :=
  s.units = [] → s.progress ≠ .running

theorem Steady.refresh {s : Stage} (h : s.Steady) : s.refresh.Steady := by
  intro empty
  rw [refresh_of_empty (s := s) empty]
  exact h empty

theorem Change.steady {w : Conduct} {owner : Nat} {cleared : Prop} {s s' : Stage}
    (ch : s.Change w owner cleared s') (h : s.Steady) : s'.Steady := by
  intro empty
  have empty₀ := Stage.ids_eq_nil_iff.mp (ch.ids_eq ▸ Stage.ids_eq_nil_iff.mpr empty)
  cases ch with
  | start _ _ => exact h empty₀
  | settle _ _ => exact h empty₀
  | judge _ _ _ decides => rcases decides.isTerminal with rfl | rfl <;> nofun

theorem still_cases {s : Stage} (whole : s.Whole) (steady : s.Steady)
    (still : ∀ u ∈ s.units, u.progress ≠ .running) :
    s.liveProgress = .new ∨ s.Done ∨ s.liveProgress = .failed := by
  rw [liveProgress_eq_failed_iff]
  by_cases empty : s.units = []
  · rw [liveProgress_of_empty empty]
    have runs := steady empty
    cases hp : s.progress with
    | new => exact Or.inl rfl
    | running => exact absurd hp runs
    | succeeded => exact Or.inr (Or.inl ⟨by simp [empty], fun _ => hp⟩)
    | failed => exact Or.inr (Or.inr (Or.inr ⟨empty, rfl⟩))
  · rcases whole with new | started
    · refine Or.inl (liveProgress_eq_new_iff.mpr ?_)
      rintro (⟨u, hu, ne⟩ | ⟨he, -⟩)
      · exact ne (new u hu)
      · exact empty he
    · refine Or.inr ?_
      by_cases failed : ∃ u ∈ s.units, u.progress = .failed
      · exact Or.inr (Or.inl failed)
      · refine Or.inl ⟨fun u hu => ?_, fun he => absurd he empty⟩
        have begun := newIds_eq_nil_iff.mp started u hu
        have settled := still u hu
        cases hp : u.progress with
        | new => exact absurd hp begun
        | running => exact absurd hp settled
        | succeeded => rfl
        | failed => exact absurd ⟨u, hu, hp⟩ failed

end Stage

namespace Task

/-! ## What is stored as final is final -/

structure Truthful (t : Task) : Prop where
  terminal : t.isTerminal = true → t.Ended
  succeeded : ∀ s ∈ t.stages, s.progress = .succeeded → s.Done

theorem Move.truthful {w : Conduct} {owner : Nat} {t t' : Task} (wf : t.WellFormed)
    (move : Move w owner t t') (h : t.Truthful) : t'.Truthful := by
  have ended : t.Ended → t'.Ended := Moves.ended wf (.single move)
  cases move with
  | refresh =>
    refine ⟨fun terminal => ?_, ?_⟩
    · rwa [Ended, refresh_refresh]
    · exact forall_mem_refreshStages (P := fun s => s.progress = .succeeded → s.Done)
        (fun s _ live => Stage.done_refresh.mpr (Stage.liveProgress_eq_succeeded_iff.mp live)) h.succeeded
  | @change s s' found ch =>
    refine ⟨fun terminal => ended (h.terminal terminal), ?_⟩
    refine forall_mem_replace (P := fun b => b.progress = .succeeded → b.Done) (fun stored => ?_) h.succeeded
    have stale : s.progress ≠ .succeeded := fun hs => ch.not_done (h.succeeded s found hs)
    cases ch with
    | start _ _ => exact absurd stored stale
    | settle _ _ => exact absurd stored stale
    | judge _ empty _ _ => exact ⟨by simp [empty], fun _ => stored⟩

theorem Fresh.truthful {t : Task} (h : t.Fresh) : t.Truthful := by
  refine ⟨fun terminal => ?_, fun s hs stored => ?_⟩
  · rw [isTerminal, h.progress_eq] at terminal
    cases terminal
  · rw [(h.stage_new hs).1] at stored
    cases stored

theorem Done.truthful {t : Task} (wf : t.WellFormed) (h : t.Done) : t.Truthful :=
  ⟨fun _ => (ended_iff wf).mpr (Or.inl h), fun s hs _ => h s hs⟩

end Task

namespace Scheduler

/-! ## Schedulers that can run all their tasks -/

section
variable {σ δ ν : Type}

/-- Every action of a task is in the plan and has room under its ceiling, and the tasks are as runs
without faults leave them behind. -/
structure Runnable (s : Scheduler σ δ ν) : Prop where
  wellFormed : ∀ t ∈ s.tasks, t.WellFormed
  inOrder : ∀ t ∈ s.tasks, t.InOrder
  whole : ∀ t ∈ s.tasks, t.Whole
  steady : ∀ t ∈ s.tasks, ∀ b ∈ t.stages, b.Steady
  truthful : ∀ t ∈ s.tasks, t.Truthful
  planned : ∀ t ∈ s.tasks, ∀ a ∈ t.actions, a ∈ s.plan.actions
  ceilings : ∀ a ∈ s.plan.gated, ∃ c, s.gate.ceiling a = some c ∧ 0 < c

theorem new_runnable {tasks : List Task} (fresh : ∀ t ∈ tasks, t.Fresh) {plan : Plan} {gate : Gate}
    (planned : ∀ t ∈ tasks, ∀ a ∈ t.actions, a ∈ plan.actions)
    (ceilings : ∀ a ∈ plan.gated, ∃ c, gate.ceiling a = some c ∧ 0 < c) (log : FailoverLog σ) (d : δ)
    (v : ν) : (Scheduler.new plan tasks gate log d v).Runnable where
  wellFormed := new_wellFormed fresh plan gate log d v
  inOrder := new_inOrder fresh plan gate log d v
  whole := new_whole fresh plan gate log d v
  steady := new_keeps (P := fun t => ∀ b ∈ t.stages, b.Steady)
    (fun t ht s hs _ => by rw [((fresh t ht).stage_new hs).1]; decide)
    (fun t _ => List.forall_mem_map.mpr fun s _ _ => nofun) plan gate log d v
  truthful := new_keeps (fun t ht => (fresh t ht).truthful)
    (fun t ht => (Task.done_assumeSucceeded t).truthful
      ((fresh t ht).wellFormed.of_shape (Task.shape_assumeSucceeded t))) plan gate log d v
  planned := new_keeps planned
    (fun t ht => Task.actions_eq_of_shape (Task.shape_assumeSucceeded t) ▸ planned t ht) plan gate log d v
  ceilings := ceilings

section
variable [NameStore σ] [Dispatcher δ] [Validator ν]

theorem schedule_plan (s : Scheduler σ δ ν) (a : Action) (report : Report) :
    (s.schedule a report).1.plan = s.plan := by
  rcases s.schedule_cases a report with ⟨window, he, -⟩ | ⟨reason, he, -⟩
  · rw [he]
    rfl
  · rw [he]

theorem Reaches.plan_eq {w : Conduct} {s s' : Scheduler σ δ ν} (run : Reaches w s s') :
    s'.plan = s.plan := by
  induction run with
  | refl => rfl
  | @tail s₁ s₂ _ step ih =>
    refine Eq.trans ?_ ih
    cases step with
    | call c _ =>
      exact perform_keeps (P := fun u => u.plan = s₁.plan) (fun _ _ h => h)
        (fun u a report h => (schedule_plan u a report).trans h) rfl c
    | settle _ _ => rw [finish_eq]
    | outside d v counts => rfl

theorem Reaches.runnable {s s' : Scheduler σ δ ν} (run : Reaches .faultless s s') (h : s.Runnable) :
    s'.Runnable := by
  have wf := h.wellFormed
  have evolves := run.evolves wf
  have accepted : Reaches .accepting s s' :=
    run.mono (fun _ answered => (Conduct.faultless_iff.mp answered).1) fun _ _ _ _ _ => trivial
  refine ⟨evolves.wellFormed wf, evolves.inOrder wf h.inOrder, accepted.whole wf h.whole, ?_,
    evolves.keeps wf (fun wf move => move.truthful wf) h.truthful, fun t' ht' => ?_, ?_⟩
  · exact evolves.keeps (P := fun t => ∀ b ∈ t.stages, b.Steady) wf (fun wf move =>
      Task.Moves.keeps_stages wf (.single move) (fun _ steady => steady.refresh)
        fun _ ch steady => ch.steady steady) h.steady
  · obtain ⟨i, at_i⟩ := List.mem_iff_getElem?.mp ht'
    obtain ⟨t, at_t, moves⟩ := evolves.origin at_i
    have ht := List.mem_of_getElem? at_t
    rw [Task.actions_eq_of_shape (moves.shape_eq (wf t ht)), run.plan_eq]
    exact h.planned t ht
  · rw [run.plan_eq, run.gate_eq]
    exact h.ceilings

end

section
variable {s : Scheduler σ δ ν} (h : s.Runnable) (still : ∀ t ∈ s.tasks, t.Still) {i : Nat} {t : Task}
  (at_i : s.tasks[i]? = some t)
include h still at_i

theorem Runnable.stage_cases {b : Stage} (hb : b ∈ t.stages) :
    b.liveProgress = .new ∨ b.Done ∨ b.liveProgress = .failed :=
  have ht := List.mem_of_getElem? at_i
  Stage.still_cases (h.whole t ht b hb) (h.steady t ht b hb) (still t ht b hb)

theorem Runnable.poised (earlier : ∀ j < i, ∀ u, s.tasks[j]? = some u → u.Ended) {a : Action}
    (present : a ∈ t.actions) (cleared : t.Cleared a) : s.Poised i a := by
  refine ⟨h.wellFormed, h.inOrder, earlier, ⟨t, at_i, present, cleared⟩, fun gated => ?_⟩
  have ht := List.mem_of_getElem? at_i
  have planned := List.mem_filter.mpr ⟨h.planned t ht a present, gated⟩
  obtain ⟨c, hc, pos⟩ := h.ceilings a planned
  refine ⟨c, hc, ?_⟩
  rwa [(Gate.inFlight_eq_zero_iff h.wellFormed).mpr fun u hu b hb _ => still u hu b hb]

end

/-! ## The next stage begins -/

theorem Runnable.next_stage {s : Scheduler σ δ ν} (h : s.Runnable) (still : ∀ t ∈ s.tasks, t.Still)
    (going : ¬∀ t ∈ s.tasks, t.Ended) :
    ∃ (i : Nat) (t : Task) (pre : List Stage) (b : Stage) (post : List Stage),
      s.tasks[i]? = some t ∧ (∀ j < i, ∀ u, s.tasks[j]? = some u → u.Ended) ∧
      t.stages = pre ++ b :: post ∧ (∀ c ∈ pre, c.Done) ∧ b.liveProgress = .new := by
  obtain ⟨us, t, vs, here, ended, not_ended⟩ := (forall_or_first Task.Ended s.tasks).resolve_left going
  have at_i : s.tasks[us.length]? = some t := by rw [here]; simp
  have ht := List.mem_of_getElem? at_i
  have ends := Task.ended_iff (h.wellFormed t ht)
  have undone : ¬∀ b ∈ t.stages, b.Done := fun done => not_ended (ends.mpr (Or.inl done))
  obtain ⟨pre, b, post, split, ahead, not_done⟩ := (forall_or_first Stage.Done t.stages).resolve_left undone
  have hb := Task.mem_of_split split
  refine ⟨us.length, t, pre, b, post, at_i, fun j lt u hu => ?_, split, ahead, ?_⟩
  · rw [here, List.getElem?_append_left lt] at hu
    exact ended u (List.mem_of_getElem? hu)
  · rcases h.stage_cases still at_i hb with new | done | failed
    · exact new
    · exact absurd done not_done
    · exact absurd (ends.mpr (Or.inr ⟨b, hb, failed⟩)) not_ended

section
variable [NameStore σ] [Dispatcher δ] [Validator ν] {s : Scheduler σ δ ν}

theorem Runnable.tick_begins (h : s.Runnable) (still : ∀ t ∈ s.tasks, t.Still) {i : Nat} {t : Task}
    (at_i : s.tasks[i]? = some t) (earlier : ∀ j < i, ∀ u, s.tasks[j]? = some u → u.Ended)
    {pre post : List Stage} {b : Stage} (split : t.stages = pre ++ b :: post)
    (ahead : ∀ c ∈ pre, c.Done) (conduct : ∀ m ∈ s.moments .tick, Conduct.faultless.answers m.request) :
    ∃ t' b', s.tick.1.tasks[i]? = some t' ∧ b' ∈ t'.stages ∧ b'.action = b.action ∧
      b'.progress = b'.liveProgress ∧ b'.liveProgress ≠ .new := by
  have ht := List.mem_of_getElem? at_i
  have wf := h.wellFormed t ht
  have cleared := (wf.cleared_iff split).mpr ahead
  have hb := Task.mem_of_split split
  have present : b.action ∈ t.actions := List.mem_map_of_mem hb
  have poised := h.poised still at_i earlier present cleared
  obtain ⟨t', at_i', b', hb', ha, begun⟩ := poised.tick_begins (h.planned t ht _ present) conduct
  have evolves := (perform_evolves (w := .any) s h.wellFormed .tick fun _ _ => trivial).1
  have ht' := List.mem_of_getElem? at_i'
  obtain ⟨u, at_u, moves⟩ := evolves.origin at_i'
  obtain rfl := Option.some.inj (at_i.symm.trans at_u)
  have cleared' : t'.Cleared b'.action := ha ▸ moves.cleared wf cleared
  refine ⟨t', b', at_i', hb', ha, ?_, fun new => Stage.liveProgress_eq_new_iff.mp new begun⟩
  exact Task.stored_of_refreshed (moves.wellFormed wf) hb' cleared'
    (tick_refreshed s h.wellFormed conduct t' ht')

/-! ## A loop comes to its end -/

def Finishes (s : Scheduler σ δ ν) : Prop :=
  ∃ s' report, s.tick = (s', .ok report) ∧ report.allFinished = true

theorem finishes_of_ended (ended : ∀ t ∈ s.tasks, t.Ended) : s.Finishes := by
  have all : (s.observe .empty).2.2 = true := by
    show (s.observe .empty).1.tasks.all (·.isTerminal) = true
    rw [observe_tasks, List.all_eq_true]
    exact List.forall_mem_map.mpr ended
  unfold Finishes tick
  generalize s.observe .empty = out at all
  obtain ⟨s', report, finished⟩ := out
  obtain rfl : finished = true := all
  exact ⟨_, _, rfl, rfl⟩

/-- A tick without faults, and then whatever comes without faults until no unit that was given out
runs. -/
structure Beat (s s' : Scheduler σ δ ν) : Prop where
  tick : ∀ m ∈ s.moments .tick, Conduct.faultless.answers m.request
  between : Reaches .faultless s.tick.1 s'
  settled : ∀ h ∈ s'.handles, s'.progress? h ≠ some .running

theorem Beat.reaches {s' : Scheduler σ δ ν} (beat : Beat s s') : Reaches .faultless s s' :=
  .head (.call .tick beat.tick) beat.between

end

def slots (ts : List Task) : List (Nat × Action) :=
  ts.zipIdx.flatMap fun p => p.1.actions.map (p.2, ·)

theorem length_slots (ts : List Task) : (slots ts).length = (ts.map (·.actions.length)).sum := by
  have lengths : ts.zipIdx.map (fun p => p.1.actions.length) = ts.map (·.actions.length) := by
    have fst := congrArg (List.map fun t : Task => t.actions.length) (List.zipIdx_map_fst 0 ts)
    rwa [List.map_map] at fst
  simp [slots, List.length_flatMap, lengths]

theorem mem_slots {ts : List Task} {i : Nat} {t : Task} (at_i : ts[i]? = some t) {a : Action}
    (present : a ∈ t.actions) : (i, a) ∈ slots ts :=
  List.mem_flatMap.mpr ⟨(t, i), List.mem_zipIdx_iff_getElem?.mpr at_i, List.mem_map_of_mem present⟩

def untouched (all : List (Nat × Action)) (ts : List Task) : Nat :=
  all.countP fun p => ¬BegunAt ts p.1 p.2

theorem untouched_lt {w : Conduct} {all : List (Nat × Action)} {ts ts' : List Task}
    (wf : ∀ t ∈ ts, t.WellFormed) (moves : Evolves w 0 ts ts') {i : Nat} {a : Action} (slot : (i, a) ∈ all)
    (before : ¬BegunAt ts i a) (after : BegunAt ts' i a) : untouched all ts' < untouched all ts := by
  have mono : ∀ all : List (Nat × Action), untouched all ts' ≤ untouched all ts := fun all =>
    List.countP_mono_left fun p _ idle =>
      decide_eq_true fun begun => of_decide_eq_true idle (begun.of_evolves wf moves)
  obtain ⟨pre, post, rfl⟩ := List.append_of_mem slot
  have ahead := mono pre
  have behind := mono post
  unfold untouched at ahead behind ⊢
  simp only [List.countP_append, List.countP_cons, before, after, not_true_eq_false,
    not_false_eq_true, decide_true, decide_false, if_true, Bool.false_eq_true, if_false]
  omega

section
variable [NameStore σ] [Dispatcher δ] [Validator ν]

theorem Runnable.beat_begins {s s' : Scheduler σ δ ν} (h : s.Runnable)
    (still : ∀ t ∈ s.tasks, t.Still) (going : ¬s.Finishes) (beat : Beat s s') :
    ∃ i t a, s.tasks[i]? = some t ∧ a ∈ t.actions ∧ ¬BegunAt s.tasks i a ∧ BegunAt s'.tasks i a := by
  obtain ⟨i, t, pre, b, post, at_i, earlier, split, ahead, new⟩ :=
    h.next_stage still fun ended => going (finishes_of_ended ended)
  obtain ⟨t', b', at_i', hb', ha, -, begun⟩ := h.tick_begins still at_i earlier split ahead beat.tick
  have ht := List.mem_of_getElem? at_i
  have hb := Task.mem_of_split split
  have after : BegunAt s.tick.1.tasks i b.action :=
    ⟨t', at_i', b', hb', ha, by_contra fun idle => begun (Stage.liveProgress_eq_new_iff.mpr idle)⟩
  have ticked : Reaches .faultless s s.tick.1 := .single (.call .tick beat.tick)
  have wf' := (ticked.runnable h).wellFormed
  refine ⟨i, t, b.action, at_i, List.mem_map_of_mem hb, ?_, after.of_evolves wf' (beat.between.evolves wf')⟩
  rintro ⟨u, at_u, c, hc, same, touched⟩
  obtain rfl := Option.some.inj (at_i.symm.trans at_u)
  obtain rfl := (h.wellFormed t ht).eq_of_action hc hb same
  exact Stage.liveProgress_eq_new_iff.mp new touched

theorem loop_untouched {start : Scheduler σ δ ν} (h : start.Runnable) (handed : start.Handed)
    (still : ∀ t ∈ start.tasks, t.Still) {state : Nat → Scheduler σ δ ν} (first : state 0 = start)
    (beats : ∀ n, (state n).Finishes ∨ Beat (state n) (state (n + 1))) {n : Nat}
    (going : ∀ m < n, ¬(state m).Finishes) :
    Reaches .faultless start (state n) ∧ (∀ t ∈ (state n).tasks, t.Still) ∧
      untouched (slots start.tasks) (state n).tasks + n ≤ (slots start.tasks).length := by
  induction n with
  | zero =>
    rw [first]
    exact ⟨.refl, still, List.countP_le_length⟩
  | succ n ih =>
    obtain ⟨run, still', bound⟩ := ih fun m lt => going m (Nat.lt_succ_of_lt lt)
    have beat := (beats n).resolve_left (going n (Nat.lt_succ_self n))
    have run' : Reaches .faultless start (state (n + 1)) := run.trans beat.reaches
    have h' := run.runnable h
    obtain ⟨i, t, a, at_i, present, before, after⟩ :=
      h'.beat_begins still' (going n (Nat.lt_succ_self n)) beat
    obtain ⟨t₀, at_start, moves⟩ := (run.evolves h.wellFormed).origin at_i
    have actions := Task.actions_eq_of_shape
      (moves.shape_eq (h.wellFormed t₀ (List.mem_of_getElem? at_start)))
    have slot := mem_slots at_start (actions ▸ present)
    have less := untouched_lt h'.wellFormed (beat.reaches.evolves h'.wellFormed) slot before after
    exact ⟨run', (run'.handed handed).still beat.settled, by omega⟩

theorem Runnable.moves_on {s : Scheduler σ δ ν} (h : s.Runnable) (still : ∀ t ∈ s.tasks, t.Still)
    {i : Nat} {t : Task} (at_i : s.tasks[i]? = some t)
    (earlier : ∀ j < i, ∀ u, s.tasks[j]? = some u → u.isTerminal = true ∨ u.Ended)
    {pre post : List Stage} {b : Stage} (split : t.stages = pre ++ b :: post)
    (ahead : ∀ c ∈ pre, c.progress = .succeeded ∨ c.Done) :
    (¬t.Ended → ¬b.Done → b.liveProgress = .new) ∧
      ∀ s' report, s.tick = (s', .ok report) → ∃ t' b', s'.tasks[i]? = some t' ∧ b' ∈ t'.stages ∧
        b'.action = b.action ∧ b'.progress ≠ .new ∧ b'.liveProgress ≠ .new := by
  have ht := List.mem_of_getElem? at_i
  have hb := Task.mem_of_split split
  refine ⟨fun open_ undone => ?_, fun s' report tick => ?_⟩
  · rcases h.stage_cases still at_i hb with new | done | failed
    · exact new
    · exact absurd done undone
    · exact absurd ((Task.ended_iff (h.wellFormed t ht)).mpr (Or.inr ⟨b, hb, failed⟩)) open_
  · -- whatever is stored as final is final, so that what is stored here can be read as live
    have earlier' : ∀ j < i, ∀ u, s.tasks[j]? = some u → u.Ended := fun j lt u hu =>
      (earlier j lt u hu).elim (h.truthful u (List.mem_of_getElem? hu)).terminal id
    have ahead' : ∀ c ∈ pre, c.Done := fun c hc => by
      have found : c ∈ t.stages := split ▸ List.mem_append_left _ hc
      exact (ahead c hc).elim ((h.truthful t ht).succeeded c found) id
    have conduct := (tick_completes_iff s h.wellFormed).mp ⟨report, by rw [tick]⟩
    obtain ⟨t', b', at_i', hb', ha, stored, begun⟩ := h.tick_begins still at_i earlier' split ahead' conduct
    rw [tick] at at_i'
    exact ⟨t', b', at_i', hb', ha, stored ▸ begun, begun⟩

theorem loop_finishes {start : Scheduler σ δ ν} (h : start.Runnable) (handed : start.Handed)
    (still : ∀ t ∈ start.tasks, t.Still) {state : Nat → Scheduler σ δ ν} (first : state 0 = start)
    (beats : ∀ n, (state n).Finishes ∨ Beat (state n) (state (n + 1))) :
    ∃ n ≤ (start.tasks.map (·.actions.length)).sum, (state n).Finishes := by
  -- else more stages would have begun by then than there are
  by_contra never
  have going : ∀ n < (start.tasks.map (·.actions.length)).sum + 1, ¬(state n).Finishes :=
    fun n lt ends => never ⟨n, Nat.le_of_lt_succ lt, ends⟩
  obtain ⟨-, -, bound⟩ := loop_untouched h handed still first beats going
  rw [length_slots] at bound
  omega

/-- With the actions of all tasks in the plan and a ceiling of at least one for every gated action,
there is no deadlock in runs without faults: whenever no unit runs, the first stage not done of the
first task not ended is new, and the next tick moves it on. A loop that settles all units between
ticks therefore comes to a tick that finds all finished, after at most as many as there are stages. -/
theorem no_deadlock {tasks : List Task} (fresh : ∀ t ∈ tasks, t.Fresh) {plan : Plan} {gate : Gate}
    (planned : ∀ t ∈ tasks, ∀ a ∈ t.actions, a ∈ plan.actions)
    (ceilings : ∀ a ∈ plan.gated, ∃ c, gate.ceiling a = some c ∧ 1 ≤ c) (log : FailoverLog σ) (d : δ)
    (v : ν) :
    (∀ s, Reaches .faultless (Scheduler.new plan tasks gate log d v) s → (∀ t ∈ s.tasks, t.Still) →
      ∀ (i : Nat) (t : Task) (pre : List Stage) (b : Stage) (post : List Stage), s.tasks[i]? = some t →
        (∀ j < i, ∀ u, s.tasks[j]? = some u → u.isTerminal = true ∨ u.Ended) →
        t.stages = pre ++ b :: post → (∀ c ∈ pre, c.progress = .succeeded ∨ c.Done) →
        (¬t.Ended → ¬b.Done → b.liveProgress = .new) ∧
        ∀ s' report, s.tick = (s', .ok report) → ∃ t' b', s'.tasks[i]? = some t' ∧ b' ∈ t'.stages ∧
          b'.action = b.action ∧ b'.progress ≠ .new ∧ b'.liveProgress ≠ .new) ∧
    ∀ state : Nat → Scheduler σ δ ν, state 0 = Scheduler.new plan tasks gate log d v →
      (∀ n, (state n).Finishes ∨ Beat (state n) (state (n + 1))) →
      ∃ n ≤ (tasks.map (·.actions.length)).sum, (state n).Finishes := by
  have able := new_runnable fresh planned ceilings log d v
  refine ⟨fun s run still i t pre b post at_i earlier split ahead => ?_, fun state first beats => ?_⟩
  · exact (run.runnable able).moves_on still at_i earlier split ahead
  · have same : ∀ {t t' : Task}, t'.shape = t.shape → t'.actions.length = t.actions.length :=
      fun h => congrArg List.length (Task.actions_eq_of_shape h)
    have finishes := loop_finishes able (new_handed fresh plan gate log d v)
      (new_still fresh plan gate log d v) first beats
    rwa [new_map_eq same] at finishes

end

end

def oneTableLoop : Nat → Scheduler MemoryStore PolicyDispatcher FixedValidator
  | 0 => OneTable.start .hold
  | _ + 1 => (((OneTable.start .hold).tick.1.finish (OneTable.unit "p=1") .succeeded).1.finish
      (OneTable.unit "p=2") .failed).1

theorem oneTable_live :
    (∃ t b, (OneTable.start .hold).tick.1.tasks[0]? = some t ∧ b ∈ t.stages ∧
      b.action = .createTable ∧ b.progress ≠ .new) ∧ ∃ n ≤ 2, (oneTableLoop n).Finishes := by
  obtain ⟨moves_on, finishes⟩ := no_deadlock OneTable.tasks_fresh OneTable.planned OneTable.ceilings
    (.openOn (⟨[]⟩ : MemoryStore)) (.ofPolicy ⟨.hold, .empty, [], []⟩ : PolicyDispatcher)
    (⟨[], [], []⟩ : FixedValidator)
  constructor
  · obtain ⟨t, b, found, hb, ha, begun, -⟩ :=
      (moves_on (OneTable.start .hold) .refl (by decide) 0 OneTable.task [] _ _ rfl nofun rfl nofun).2
        (OneTable.start .hold).tick.1 _ rfl
    exact ⟨t, b, found, hb, ha, begun⟩
  · refine finishes oneTableLoop rfl fun n => ?_
    cases n with
    | zero =>
      have first : Step .faultless (OneTable.start .hold).tick.1 _ :=
        .settle (h := OneTable.unit "p=1") (by decide) (o := .succeeded) trivial
      have second := Step.settle (w := .faultless)
        (s := ((OneTable.start .hold).tick.1.finish (OneTable.unit "p=1") .succeeded).1)
        (h := OneTable.unit "p=2") (by decide) (o := .failed) trivial
      exact Or.inr ⟨by decide, .tail (.single first) second, by decide⟩
    | succ n => exact Or.inl ⟨_, _, rfl, rfl⟩

end Scheduler

end TableMigration
