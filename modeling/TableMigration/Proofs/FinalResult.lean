import TableMigration.Proofs.DependencyOrder

/-!
# The result does not depend on the schedule

Let every unit have an outcome and every table a verdict that are fixed beforehand. Then the
progress in which a finished run leaves a task is a function of these alone: stages succeed up to
the first that has to fail, and the later ones never begin. Neither the gate nor the order of tasks,
calls and completions has a part in it.
-/

namespace TableMigration

theorem Verdict.ofBool_injective {b c : Bool} (h : Verdict.ofBool b = .ofBool c) : b = c := by
  cases b <;> cases c <;> first | rfl | cases h

/-- What becomes of each unit of the task at a position, and of the task when it is compared. -/
structure Fate where
  outcome : Nat → Action → String → Outcome
  verdict : Nat → Bool

namespace Fate

/-- Units finish as they have to, the validator judges so, and nothing is refused or crashes. -/
def conduct (f : Fate) : Conduct where
  answers
    | .submit _ .running => True
    | .submit h (.finished o) => o = f.outcome h.owner h.action h.unit
    | .submit _ (.refused _) => False
    | .validate owner _ verdict => verdict = .ofBool (f.verdict owner)
  settles owner a id o := o = f.outcome owner a id
  settles_of_finished _ _ h := h

instance (f : Fate) (q : Request) : Decidable (f.conduct.answers q) :=
  match q with
  | .submit _ .running => .isTrue trivial
  | .submit h (.finished o) => inferInstanceAs (Decidable (o = f.outcome h.owner h.action h.unit))
  | .submit _ (.refused _) => .isFalse id
  | .validate owner _ verdict => inferInstanceAs (Decidable (verdict = .ofBool (f.verdict owner)))

/-- Whether a stage has to fail, given by its action and the ids of its units. -/
def fails (f : Fate) (owner : Nat) (stage : Action × List String) : Bool :=
  stage.2.any (fun id => f.outcome owner stage.1 id == .failed) ||
    (stage.1.isCompare && !f.verdict owner)

/-- The progress in which stages end: nothing begins after the first that fails. -/
def result (f : Fate) (owner : Nat) : List (Action × List String) → List Progress
  | [] => []
  | stage :: rest =>
    if f.fails owner stage then .failed :: rest.map fun _ => .new
    else .succeeded :: f.result owner rest

section
variable {f : Fate} {owner : Nat}

theorem result_of_success {stages : List (Action × List String)}
    (h : ∀ p ∈ stages, f.fails owner p = false) :
    f.result owner stages = stages.map fun _ => .succeeded := by
  induction stages with
  | nil => rfl
  | cons p rest ih =>
    obtain ⟨hp, hrest⟩ := List.forall_mem_cons.mp h
    rw [result, hp, ih hrest]
    rfl

theorem result_of_failure {pre post : List (Action × List String)} {p : Action × List String}
    (hpre : ∀ q ∈ pre, f.fails owner q = false) (hp : f.fails owner p = true) :
    f.result owner (pre ++ p :: post) =
      pre.map (fun _ => .succeeded) ++ .failed :: post.map fun _ => .new := by
  induction pre with
  | nil => rw [List.nil_append, result, if_pos hp]; rfl
  | cons q pre ih =>
    obtain ⟨hq, hpre⟩ := List.forall_mem_cons.mp hpre
    rw [List.cons_append, result, hq, ih hpre]
    rfl

end

/-! ## What moves keep of a stage -/

structure Governs (f : Fate) (owner : Nat) (s : Stage) : Prop where
  units : ∀ u ∈ s.units, u.progress.isTerminal = true →
    u.progress = (f.outcome owner s.action u.id).progress
  judged : s.units = [] → s.progress ≠ .new →
    s.progress = if f.fails owner (s.action, s.ids) then .failed else .succeeded
  idle : ¬s.Begun → s.progress = .new

section
variable {f : Fate} {owner : Nat} {s s' : Stage}

theorem Governs.refresh (h : f.Governs owner s) : f.Governs owner s.refresh := by
  by_cases empty : s.units = []
  · rw [Stage.refresh_of_empty empty]; exact h
  · refine ⟨h.units, fun he => absurd he empty, fun idle => ?_⟩
    exact Stage.liveProgress_eq_new_iff.mpr fun begun => idle (Stage.begun_refresh.mpr begun)

theorem Governs.setUnit (h : f.Governs owner s) (nodup : s.ids.Nodup) {id : String} {p q : Progress}
    (hp : s.unitProgress? id = some p) (hq : q ≠ .new)
    (ends : q.isTerminal = true → q = (f.outcome owner s.action id).progress) :
    f.Governs owner (s.setUnit id q) := by
  obtain ⟨us, vs, split, set⟩ := Stage.setUnit_split nodup hp
  refine ⟨fun u hu => ?_, fun he => ?_, fun idle => ?_⟩
  · rw [set, List.mem_append, List.mem_cons] at hu
    have old := fun hu => h.units u (by rw [split]; exact hu)
    rcases hu with hu | rfl | hu
    · exact old (List.mem_append_left _ hu)
    · exact ends
    · exact old (List.mem_append_right _ (List.mem_cons_of_mem _ hu))
  · simp [set] at he
  · exact absurd (Or.inl ⟨⟨id, q⟩, by simp [set], hq⟩) idle

theorem Governs.change {cleared : Prop} (h : f.Governs owner s) (nodup : s.ids.Nodup)
    (ch : s.Change f.conduct owner cleared s') : f.Governs owner s' := by
  cases ch with
  | start _ new => exact h.setUnit nodup new (by decide) fun ht => nomatch ht
  | @settle id o running settles =>
    obtain rfl : o = _ := settles
    exact h.setUnit nodup running (by cases f.outcome owner s.action id <;> decide) fun _ => rfl
  | @judge p _ empty _ decides =>
    have noIds := Stage.ids_eq_nil_iff.mpr empty
    have final : p = if f.fails owner (s.action, s.ids) then .failed else .succeeded := by
      cases decides with
      | @verdict passed compare answers =>
        obtain rfl : passed = f.verdict owner := Verdict.ofBool_injective answers
        rw [fails, noIds, compare]
        cases f.verdict owner <;> rfl
      | nothing gated =>
        rw [fails, noIds, gated]
        rfl
    have ended : p ≠ .new := by
      rcases decides.isTerminal with hp | hp <;> rw [hp] <;> decide
    exact ⟨h.units, fun _ _ => final, fun idle => absurd (Or.inr ⟨empty, ended⟩) idle⟩

theorem Governs.of_done (h : f.Governs owner s) (wf : s.WellFormed) (done : s.Done) :
    f.fails owner (s.action, s.ids) = false := by
  by_cases empty : s.units = []
  · have judged := h.judged empty (by rw [done.2 empty]; decide)
    rw [done.2 empty] at judged
    cases hf : f.fails owner (s.action, s.ids) with
    | false => rfl
    | true => rw [hf] at judged; cases judged
  · have units : s.ids.any (fun id => f.outcome owner s.action id == .failed) = false := by
      refine List.any_eq_false.mpr (List.forall_mem_map.mpr fun u hu => ?_)
      have ended := h.units u hu (by rw [done.1 u hu]; rfl)
      rw [done.1 u hu] at ended
      cases ho : f.outcome owner s.action u.id with
      | succeeded => decide
      | failed => rw [ho] at ended; cases ended
    have gated : s.action.isCompare = false := by
      rw [← Bool.not_eq_true]
      exact fun compare => empty (wf.compare compare)
    rw [fails, units, gated]
    rfl

theorem Governs.of_failed (h : f.Governs owner s) (failed : s.liveProgress = .failed) :
    f.fails owner (s.action, s.ids) = true := by
  rcases Stage.liveProgress_eq_failed_iff.mp failed with ⟨u, hu, hf⟩ | ⟨empty, hf⟩
  · have ended := h.units u hu (by rw [hf]; rfl)
    have outcome : f.outcome owner s.action u.id = .failed := by
      cases ho : f.outcome owner s.action u.id with
      | succeeded => rw [ho, hf] at ended; cases ended
      | failed => rfl
    rw [fails, Bool.or_eq_true, List.any_eq_true]
    exact Or.inl ⟨u.id, List.mem_map_of_mem hu, by rw [outcome]; rfl⟩
  · have judged := h.judged empty (by rw [hf]; decide)
    rw [hf] at judged
    by_contra hn
    rw [if_neg hn] at judged
    cases judged

end

end Fate

/-! ## A terminal task -/

theorem Task.Fresh.governs {t : Task} (h : t.Fresh) (f : Fate) (owner : Nat) :
    ∀ s ∈ t.stages, f.Governs owner s := by
  intro s hs
  obtain ⟨stored, units⟩ := h.stage_new hs
  refine ⟨fun u hu ended => ?_, fun _ hn => absurd stored hn, fun _ => stored⟩
  rw [units u hu] at ended
  cases ended

/-- A task ends as its fate has it, provided that what began did so in order. -/
structure Fate.Decides (f : Fate) (owner : Nat) (t : Task) : Prop where
  stages : t.stages.map (·.progress) = f.result owner t.shape
  /-- What is stored for the stages is what their units say. -/
  live : ∀ s ∈ t.stages, s.liveProgress = s.progress
  task : t.progress = if t.shape.any (f.fails owner) then .failed else .succeeded

section
variable {f : Fate} {owner : Nat} {t : Task}

theorem Task.decided_of_done (wf : t.WellFormed) (governed : ∀ s ∈ t.stages, f.Governs owner s)
    (done : t.Done) (refreshed : t.refresh.stages = t.stages.map Stage.refresh) :
    f.Decides owner t.refresh := by
  have spared : ∀ p ∈ t.shape, f.fails owner p = false :=
    List.forall_mem_map.mpr fun s hs => (governed s hs).of_done (wf.stages s hs) (done s hs)
  have live : ∀ s ∈ t.stages, s.refresh.progress = .succeeded :=
    fun s hs => Stage.liveProgress_eq_succeeded_iff.mpr (done s hs)
  refine ⟨?_, ?_, ?_⟩
  · rw [shape_refresh, Fate.result_of_success spared, refreshed, shape, List.map_map, List.map_map]
    exact List.map_congr_left live
  · rw [refreshed]
    exact List.forall_mem_map.mpr fun s _ => Stage.refresh_liveProgress s
  · have none : t.shape.any (f.fails owner) = false :=
      List.any_eq_false.mpr fun p hp => by rw [spared p hp]; decide
    rw [shape_refresh, none, (progress_refresh_eq_succeeded_iff wf.nonempty).mpr done]
    rfl

theorem Task.decided_of_failed (wf : t.WellFormed) (ordered : t.InOrder)
    (governed : ∀ s ∈ t.stages, f.Governs owner s) {pre post : List Stage} {s : Stage}
    (split : t.stages = pre ++ s :: post) (failed : s.liveProgress = .failed)
    (refreshed : t.refresh.stages = pre.map Stage.refresh ++ s.refresh :: post) :
    f.Decides owner t.refresh := by
  -- `s` has begun, so what is ahead of it is done; it is not done, so nothing behind it has begun
  rw [InOrder, split, List.pairwise_append, List.pairwise_cons] at ordered
  obtain ⟨-, ⟨behind, -⟩, ahead⟩ := ordered
  rw [split, List.forall_mem_append, List.forall_mem_cons] at governed
  obtain ⟨hpre, hs, hpost⟩ := governed
  have begun : s.Begun := by
    by_contra idle
    rw [Stage.liveProgress_eq_new_iff.mpr idle] at failed
    cases failed
  have done : ∀ b ∈ pre, b.Done := fun b hb => ahead b hb s (List.mem_cons_self ..) begun
  have idle : ∀ c ∈ post, ¬c.Begun := fun c hc hb => by
    rw [Stage.liveProgress_eq_succeeded_iff.mpr (behind c hc hb)] at failed
    cases failed
  have spared : ∀ p ∈ pre.map fun b => (b.action, b.ids), f.fails owner p = false :=
    List.forall_mem_map.mpr fun b hb =>
      (hpre b hb).of_done (wf.stages b (by rw [split]; simp [hb])) (done b hb)
  have shape_eq : t.refresh.shape =
      pre.map (fun b => (b.action, b.ids)) ++ (s.action, s.ids) :: post.map fun b => (b.action, b.ids) := by
    rw [shape_refresh, shape, split, List.map_append, List.map_cons]
  refine ⟨?_, ?_, ?_⟩
  · rw [shape_eq, Fate.result_of_failure spared (hs.of_failed failed), refreshed, List.map_append,
      List.map_cons, List.map_map, List.map_map, List.map_map]
    refine congrArg₂ _ (List.map_congr_left fun b hb => ?_) (congrArg₂ _ failed ?_)
    · exact Stage.liveProgress_eq_succeeded_iff.mpr (done b hb)
    · exact List.map_congr_left fun c hc => (hpost c hc).idle (idle c hc)
  · rw [refreshed, List.forall_mem_append, List.forall_mem_cons]
    refine ⟨List.forall_mem_map.mpr fun b _ => Stage.refresh_liveProgress b,
      Stage.refresh_liveProgress s, fun c hc => ?_⟩
    rw [(hpost c hc).idle (idle c hc), Stage.liveProgress_eq_new_iff.mpr (idle c hc)]
  · have some : t.refresh.shape.any (f.fails owner) = true :=
      List.any_eq_true.mpr ⟨(s.action, s.ids), by rw [shape_eq]; simp, hs.of_failed failed⟩
    rw [some, if_pos rfl]
    refine Progress.aggregate_eq_failed_iff.mpr (List.mem_map.mpr ⟨s.refresh, ?_, failed⟩)
    have at_s : s.refresh ∈ t.refresh.stages := by rw [refreshed]; simp
    exact at_s

theorem Task.decided_of_terminal (wf : t.WellFormed) (ordered : t.InOrder)
    (governed : ∀ s ∈ t.stages, f.Governs owner s) (terminal : t.refresh.isTerminal = true) :
    f.Decides owner t.refresh := by
  rcases refreshStages_cases t.stages with ⟨clean, refreshed⟩ | ⟨pre, s, post, split, -, failed, refreshed⟩
  · have not_failed : t.refresh.progress ≠ .failed := by
      show Progress.aggregate ((refreshStages t.stages).map (·.progress)) ≠ .failed
      rw [Ne, Progress.aggregate_eq_failed_iff, refreshed, List.map_map, List.mem_map]
      rintro ⟨s, hs, hf⟩
      exact clean s hs hf
    have succeeded : t.refresh.progress = .succeeded := by
      rw [isTerminal] at terminal
      cases hp : t.refresh.progress with
      | succeeded => rfl
      | failed => exact absurd hp not_failed
      | new => rw [hp] at terminal; cases terminal
      | running => rw [hp] at terminal; cases terminal
    exact decided_of_done wf governed
      ((progress_refresh_eq_succeeded_iff wf.nonempty).mp succeeded) refreshed
  · exact decided_of_failed wf ordered governed split failed refreshed

end

/-! ## A finished run -/

namespace Round

variable {σ δ ν : Type} [NameStore σ]

theorem settleTask_allFinished (t : Task) (log : FailoverLog σ) (report : Report) :
    (settleTask t log report).2.2.allFinished = report.allFinished := by
  obtain ⟨-, same⟩ | ⟨-, same⟩ := settleTask_cases t log report <;> rw [same]

theorem conclude_allFinished (r : Round σ δ ν) (t : Task) :
    (r.conclude t).2.1.report.allFinished = r.report.allFinished :=
  settleTask_allFinished t r.log r.report

variable [Dispatcher δ] [Validator ν]

theorem admitTask_allFinished {t : Task} (wf : t.WellFormed) (owner : Nat) (a : Action)
    (r : Round σ δ ν) :
    (r.admitTask owner a t).2.1.report.allFinished = r.report.allFinished := by
  have visit := admitTask_visit wf owner a r
  generalize r.admitTask owner a t = out, admitMoments owner a t r = ms at visit ⊢
  cases visit with
  | idle passed => rfl
  | crash turn asked => rfl
  | judge turn compare empty asked => exact conclude_allFinished _ _
  | skip turn gated empty => exact conclude_allFinished _ _
  | @halt _ _ _ s turn submitted =>
    have frame := submit_frame owner a t.refresh r s.newIds
    rw [submitted] at frame
    exact frame.allFinished
  | @work _ r' s turn _ submitted =>
    have frame := submit_frame owner a t.refresh r s.newIds
    rw [submitted] at frame
    exact (conclude_allFinished _ _).trans frame.allFinished

theorem run_allFinished (a : Action) (owner : Nat) (r : Round σ δ ν) (ts : List Task)
    (wf : ∀ t ∈ ts, t.WellFormed) :
    (r.run a owner ts).2.1.report.allFinished = r.report.allFinished :=
  run_relates (R := fun _ r _ _ _ r' => r'.report.allFinished = r.report.allFinished) (fun _ _ _ => rfl)
    (fun hwf _ rest => rest.trans (admitTask_allFinished hwf _ a _)) owner r wf

end Round

namespace Scheduler

variable {σ δ ν : Type} [NameStore σ]

theorem observeTasks_allFinished (log : FailoverLog σ) (report : Report) (ts : List Task) :
    (observeTasks log report ts).2.2.allFinished = report.allFinished := by
  induction ts generalizing log report with
  | nil => rfl
  | cons t ts ih => exact (ih _ _).trans (Round.settleTask_allFinished t log report)

variable [Dispatcher δ] [Validator ν]

theorem schedule_allFinished (s : Scheduler σ δ ν) (wf : ∀ t ∈ s.tasks, t.WellFormed) (a : Action)
    (report : Report) : (s.schedule a report).2.1.allFinished = report.allFinished := by
  rcases s.schedule_cases a report with ⟨window, he, -⟩ | ⟨reason, he, -⟩
  · rw [he]
    exact Round.run_allFinished a 0
      ⟨window, s.log, s.dispatcher, s.validator, s.counts, s.handles, report⟩ s.tasks wf
  · rw [he]

theorem scheduleAll_allFinished (actions : List Action) {s : Scheduler σ δ ν}
    (wf : ∀ t ∈ s.tasks, t.WellFormed) {report result : Report}
    (h : (s.scheduleAll report actions).2 = .ok result) : result.allFinished = report.allFinished := by
  refine scheduleAll_induction (R := fun _ report _ _ out => ∀ result, out.2 = .ok result →
    result.allFinished = report.allFinished) ?_ ?_ ?_ actions wf report result h
  · exact fun s report result same => Except.ok.inj same ▸ rfl
  · exact fun wf _ rest result done => (rest result done).trans (schedule_allFinished _ wf _ _)
  · exact fun _ _ _ => nofun

theorem tick_of_allFinished {s s' : Scheduler σ δ ν} (wf : ∀ t ∈ s.tasks, t.WellFormed)
    {report : Report} (tick : s.tick = (s', .ok report)) (finished : report.allFinished = true) :
    s'.tasks = s.tasks.map Task.refresh ∧ ∀ t ∈ s'.tasks, t.isTerminal = true := by
  have moves := observe_evolves (w := .any) s .empty
  rcases s.tick_cases with ⟨all, -, he⟩ | ⟨s₁, result, done, -, he⟩
  · obtain rfl : (s.observe .empty).1 = s' := congrArg Prod.fst (he.symm.trans tick)
    exact ⟨observe_tasks s .empty, all⟩
  · obtain ⟨-, made⟩ := Prod.mk.inj (he.symm.trans tick)
    obtain ⟨r, rfl, rfl⟩ := map_eq_ok made
    have same : r.allFinished = (s.observe .empty).2.1.allFinished :=
      scheduleAll_allFinished s.plan.actions (moves.wellFormed wf) (congrArg Prod.snd done)
    have flag : (s.observe .empty).2.1.allFinished = false := observeTasks_allFinished s.log .empty s.tasks
    cases finished.symm.trans (same.trans flag)

/-- In a run under a fixed fate that comes to an end, each task not recorded as finished before
ends in the progress that its units and its verdict decide. -/
theorem result_independent_of_schedule {tasks : List Task} (fresh : ∀ t ∈ tasks, t.Fresh)
    {plan : Plan} {gate : Gate} {log : FailoverLog σ} {d : δ} {v : ν} (f : Fate)
    {s s' : Scheduler σ δ ν} (run : Reaches f.conduct (Scheduler.new plan tasks gate log d v) s)
    {report : Report} (tick : s.tick = (s', .ok report)) (finished : report.allFinished = true)
    {i : Nat} {t : Task} (at_i : tasks[i]? = some t) (unrecorded : log.isFinished t.name = false) :
    ∃ t', s'.tasks[i]? = some t' ∧ t'.name = t.name ∧ t'.shape = t.shape ∧ f.Decides i t' := by
  have start := new_wellFormed fresh plan gate log d v
  have made : (Scheduler.new plan tasks gate log d v).tasks[i]? = some t := by
    show (tasks.map _)[i]? = some t
    rw [List.getElem?_map, at_i, Option.map_some, unrecorded, if_neg (by decide)]
  have new := fresh t (List.mem_of_getElem? at_i)
  have evolves := run.evolves start
  obtain ⟨t₁, at_t₁, moves⟩ := evolves.moves i t made
  rw [Nat.zero_add] at moves
  have wf := moves.wellFormed new.wellFormed
  have ordered : t₁.InOrder :=
    moves.keeps (P := Task.InOrder) new.wellFormed (fun wf move => move.inOrder wf) new.inOrder
  have governed : ∀ u ∈ t₁.stages, f.Governs i u :=
    moves.keeps_stages new.wellFormed (fun _ h => h.refresh)
      (fun wf ch h => h.change wf.nodup ch) (new.governs f i)
  obtain ⟨refreshed, terminal⟩ := tick_of_allFinished (evolves.wellFormed start) tick finished
  have final : s'.tasks[i]? = some t₁.refresh := by
    rw [refreshed, List.getElem?_map, at_t₁, Option.map_some]
  exact ⟨t₁.refresh, final, moves.name_eq, (Task.shape_refresh t₁).trans (moves.shape_eq new.wellFormed),
    Task.decided_of_terminal wf ordered governed (terminal _ (List.mem_of_getElem? final))⟩

theorem oneTable_result : ∃ t, (OneTable.start .fail).tick.1.tick.1.tasks[0]? = some t ∧
    t.stages.map (·.progress) = [.failed, .new] ∧ t.progress = .failed := by
  let f : Fate := ⟨fun _ _ _ => .failed, fun _ => true⟩
  have run : Reaches f.conduct (OneTable.start .fail) (OneTable.start .fail).tick.1 :=
    .single (.call .tick (by decide))
  have tick : (OneTable.start .fail).tick.1.tick = ((OneTable.start .fail).tick.1.tick.1, .ok
      { Report.empty with
        allFinished := true
        snapshot := [⟨"db.t", .failed, [(.createTable, .failed), (.compareResults, .new)]⟩] }) := rfl
  obtain ⟨t, found, -, shape, decided⟩ := result_independent_of_schedule OneTable.tasks_fresh f run tick
    rfl (i := 0) (t := OneTable.task) rfl rfl
  have stages := decided.stages
  have task := decided.task
  rw [shape] at stages task
  exact ⟨t, found, stages, task⟩

end Scheduler

end TableMigration
