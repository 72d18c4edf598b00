import TableMigration.Proofs.DependencyOrder
import TableMigration.Proofs.Recording

/-!
# Tasks that have ended

A task has ended when all its stages are done or one of them has failed: its progress, derived
anew, is then terminal. No action is ever ready in such a task, so that nothing more is asked for
it, and what its units still report changes nothing. The failure of a unit is therefore final.
-/

namespace TableMigration

namespace Stage

theorem not_done_of_accepts {s : Stage} (h : s.acceptsWork = true) : ¬s.Done := by
  intro done
  by_cases empty : s.units = []
  · have new := not_begun_of_accepts_empty h empty
    rw [done.2 empty] at new
    cases new
  · have has := hasUnits_iff.mpr empty
    rw [acceptsWork, if_pos has, Bool.and_eq_true, hasWaiting, List.any_eq_true] at h
    obtain ⟨u, hu, new⟩ := h.2
    rw [done.1 u hu] at new
    cases new

theorem begun_of_failed {s : Stage} (h : s.liveProgress = .failed) : s.Begun := by
  by_contra idle
  rw [liveProgress_eq_new_iff.mpr idle] at h
  cases h

theorem failed_setUnit {s : Stage} (nodup : s.ids.Nodup) {id : String} {p : Progress}
    (hp : s.unitProgress? id = some p) (ne : p ≠ .failed) (q : Progress)
    (h : ∃ u ∈ s.units, u.progress = .failed) : ∃ u ∈ (s.setUnit id q).units, u.progress = .failed := by
  obtain ⟨us, vs, split, set⟩ := setUnit_split nodup hp
  obtain ⟨u, hu, failed⟩ := h
  rw [split, List.mem_append, List.mem_cons] at hu
  refine ⟨u, ?_, failed⟩
  rw [set, List.mem_append, List.mem_cons]
  rcases hu with hu | rfl | hu
  · exact Or.inl hu
  · exact absurd failed ne
  · exact Or.inr (Or.inr hu)

theorem Change.failed {w : Conduct} {owner : Nat} {cleared : Prop} {s s' : Stage}
    (ch : s.Change w owner cleared s') (nodup : s.ids.Nodup) (h : s.liveProgress = .failed) :
    s'.liveProgress = .failed := by
  rw [liveProgress_eq_failed_iff] at h ⊢
  -- a unit that is set is in the stage, and a stage that is judged has none and has not failed
  cases ch with
  | @start id _ new =>
    obtain ⟨u, hu, -⟩ := Option.map_eq_some_iff.mp new
    refine Or.inl (failed_setUnit nodup new (by decide) .running (h.resolve_right fun hn => ?_))
    rw [hn.1] at hu
    cases hu
  | @settle id o running _ =>
    obtain ⟨u, hu, -⟩ := Option.map_eq_some_iff.mp running
    refine Or.inl (failed_setUnit nodup running (by decide) o.progress (h.resolve_right fun hn => ?_))
    rw [hn.1] at hu
    cases hu
  | judge _ empty new _ =>
    rcases h with ⟨u, hu, -⟩ | ⟨-, failed⟩
    · rw [empty] at hu
      cases hu
    · rw [new] at failed
      cases failed

end Stage

namespace Task

def Failed (t : Task) : Prop :=
  ∃ s ∈ t.stages, s.liveProgress = .failed

def Ended (t : Task) : Prop :=
  t.refresh.isTerminal = true

theorem failed_iff_mem {t : Task} : t.Failed ↔ Progress.failed ∈ t.stages.map Stage.liveProgress :=
  List.mem_map.symm

theorem failed_refresh {t : Task} : t.refresh.Failed ↔ t.Failed := by
  rw [failed_iff_mem, failed_iff_mem, refresh, map_refreshStages _ Stage.refresh_liveProgress]

theorem progress_refresh_eq_failed_iff {t : Task} : t.refresh.progress = .failed ↔ t.Failed := by
  show Progress.aggregate ((refreshStages t.stages).map (·.progress)) = _ ↔ _
  rw [Progress.aggregate_eq_failed_iff]
  rcases refreshStages_cases t.stages with ⟨clean, he⟩ | ⟨pre, s, post, split, -, failed, he⟩
  · rw [he, List.map_map, failed_iff_mem]
    rfl
  · refine iff_of_true (List.mem_map.mpr ⟨s.refresh, by rw [he]; simp, failed⟩) ⟨s, ?_, failed⟩
    exact mem_of_split split

theorem failed_of_part {t : Task} (wf : t.WellFormed)
    (h : (∃ s ∈ t.stages, ∃ u ∈ s.units, u.progress = .failed) ∨
      ∃ s ∈ t.stages, s.action = .compareResults ∧ s.progress = .failed) : t.Failed := by
  rcases h with ⟨s, hs, units⟩ | ⟨s, hs, compare, failed⟩
  · exact ⟨s, hs, Stage.liveProgress_eq_failed_iff.mpr (Or.inl units)⟩
  · have empty := (wf.stages s hs).compare (by rw [compare]; rfl)
    exact ⟨s, hs, Stage.liveProgress_eq_failed_iff.mpr (Or.inr ⟨empty, failed⟩)⟩

theorem ended_iff {t : Task} (wf : t.WellFormed) : t.Ended ↔ t.Done ∨ t.Failed := by
  rw [← progress_refresh_eq_succeeded_iff wf.nonempty, ← progress_refresh_eq_failed_iff]
  exact Progress.isTerminal_iff

theorem Done.not_failed {t : Task} (h : t.Done) : ¬t.Failed := by
  rintro ⟨s, hs, failed⟩
  rw [Stage.liveProgress_eq_succeeded_iff.mpr (h s hs)] at failed
  cases failed

theorem mem_replace_of_ne {t : Task} {s b : Stage} (hb : b ∈ t.stages) (ne : b.action ≠ s.action) :
    b ∈ (t.replace s).stages :=
  List.mem_map.mpr ⟨b, hb, if_neg ne⟩

section
variable {w : Conduct} {owner : Nat} {t t' : Task} (wf : t.WellFormed)
include wf

theorem Move.failed (move : Move w owner t t') (h : t.Failed) : t'.Failed := by
  cases move with
  | refresh => exact failed_refresh.mpr h
  | @change s s' found ch =>
    obtain ⟨f, hf, failed⟩ := h
    by_cases ha : f.action = s.action
    · obtain rfl := wf.eq_of_action hf found ha
      exact ⟨s', mem_replace_self found ch.action_eq, ch.failed (wf.stages f found).nodup failed⟩
    · exact ⟨f, mem_replace_of_ne hf (ch.action_eq ▸ ha), failed⟩

theorem Moves.failed (moves : Moves w owner t t') (h : t.Failed) : t'.Failed :=
  moves.keeps wf (fun wf move => move.failed wf) h

theorem Moves.ended (moves : Moves w owner t t') (h : t.Ended) : t'.Ended := by
  rw [ended_iff (moves.wellFormed wf)]
  exact ((ended_iff wf).mp h).imp (moves.done wf) (moves.failed wf)

theorem Moves.inOrder (moves : Moves w owner t t') (h : t.InOrder) : t'.InOrder :=
  moves.keeps wf (fun wf move => move.inOrder wf) h

/-- Earlier stages of a failed one are done and later ones have to wait for it. -/
theorem Ended.not_ready (ordered : t.InOrder) (ended : t.Ended) (a : Action) :
    t.refresh.isReady a = false := by
  rw [← Bool.not_eq_true]
  intro ready
  obtain ⟨s, hs, rfl, cleared, accepts⟩ := ready_cases wf ready
  rcases (ended_iff wf).mp ended with done | failed
  · exact Stage.not_done_of_accepts accepts (done_refresh.mpr done s hs)
  · have move : Move .any 0 t t.refresh := .refresh
    have wf' := wf.of_shape (shape_refresh t)
    have ahead := (inOrder_iff wf').mp (move.inOrder wf ordered)
    rcases refreshStages_cases t.stages with ⟨clean, -⟩ | ⟨pre, f, post, -, -, live, he⟩
    · obtain ⟨f, hf, live⟩ := failed
      exact clean f hf live
    · have hf : f.refresh ∈ t.refresh.stages := mem_of_split he
      have live' : f.refresh.liveProgress = .failed := (f.refresh_liveProgress).trans live
      rcases Nat.lt_trichotomy f.refresh.action.rank s.action.rank with lt | eq | gt
      · have done := Stage.liveProgress_eq_succeeded_iff.mpr (cleared f.refresh hf lt)
        rw [live'] at done
        cases done
      · obtain rfl := wf'.eq_of_action hf hs (Action.rank_injective eq)
        rw [Stage.acceptsWork, Stage.refresh_progress, live] at accepts
        cases accepts
      · exact Stage.not_done_of_accepts accepts
          (ahead f.refresh hf (Stage.begun_of_failed live') s hs gt)

end

end Task

/-! ## Who is asked for -/

namespace Round

variable {σ δ ν : Type}

theorem admitMoments_of_not_ready [Dispatcher δ] [Validator ν] {a : Action} {t : Task}
    (h : t.refresh.isReady a = false) (owner : Nat) (r : Round σ δ ν) :
    admitMoments owner a t r = [] := by
  simp [admitMoments, h]

variable [NameStore σ] [Dispatcher δ] [Validator ν]

theorem moments_ready (a : Action) (owner : Nat) (r : Round σ δ ν) (ts : List Task)
    (wf : ∀ t ∈ ts, t.WellFormed) : ∀ m ∈ r.moments a owner ts, ∃ i t, ts[i]? = some t ∧
      t.refresh.isReady a = true ∧ m.request.owner = owner + i ∧
      ∀ h, m.request.handle? = some h → h.task = t.name := by
  refine run_relates (R := fun owner _ ts ms _ _ => ∀ m ∈ ms, ∃ i t, ts[i]? = some t ∧
    t.refresh.isReady a = true ∧ m.request.owner = owner + i ∧ ∀ h, m.request.handle? = some h → h.task = t.name)
    (fun _ _ _ => List.forall_mem_nil _) ?_ owner r wf
  intro owner r t ts ms ts' r' hwf _ rest
  refine List.forall_mem_append.mpr
    ⟨List.forall_mem_map.mpr fun m hm => ?_, List.forall_mem_map.mpr fun m hm => ?_⟩
  · obtain ⟨moves, proper⟩ := (admitTask_moves (w := .any) hwf owner a r fun _ _ => trivial).2 m hm
    refine ⟨0, t, rfl, ?_, proper.owner_eq, fun h hh => (proper.handle h hh).trans moves.name_eq⟩
    by_contra unready
    rw [Bool.not_eq_true] at unready
    rw [admitMoments_of_not_ready unready] at hm
    cases hm
  · obtain ⟨i, u, hu, ready, who, handle⟩ := rest m hm
    exact ⟨i + 1, u, hu, ready, by rw [who, Nat.add_right_comm]; rfl, handle⟩

end Round

namespace Scheduler

variable {σ δ ν : Type} [NameStore σ] [Dispatcher δ] [Validator ν]

def Asks (ts : List Task) (m : Moment) : Prop :=
  ∃ ts' : List Task, Evolves .any 0 ts ts' ∧ ∃ t a, ts'[m.request.owner]? = some t ∧
    t.refresh.isReady a = true ∧ ∀ h, m.request.handle? = some h → h.task = t.name

theorem schedule_asks (s : Scheduler σ δ ν) (wf : ∀ t ∈ s.tasks, t.WellFormed) (a : Action)
    (report : Report) : ∀ m ∈ s.scheduleMoments a report, Asks s.tasks m := by
  intro m hm
  rcases s.schedule_cases a report with ⟨window, -, he⟩ | ⟨reason, -, he⟩
  · rw [he] at hm
    obtain ⟨i, t, ht, ready, who, handle⟩ := Round.moments_ready a 0 _ s.tasks wf m hm
    rw [Nat.zero_add] at who
    exact ⟨s.tasks, .refl .., t, a, who ▸ ht, ready, handle⟩
  · rw [he] at hm
    cases hm

theorem Asks.of_evolves {ts ts' : List Task} {m : Moment} (moves : Evolves .any 0 ts ts')
    (h : Asks ts' m) : Asks ts m := by
  obtain ⟨ts'', moves', subject⟩ := h
  exact ⟨ts'', moves.trans moves', subject⟩

theorem moments_ask (s : Scheduler σ δ ν) (wf : ∀ t ∈ s.tasks, t.WellFormed) (c : Call) :
    ∀ m ∈ s.moments c, Asks s.tasks m := by
  refine (perform_relates (R := fun s ms s' => (∀ m ∈ ms, Asks s.tasks m) ∧
    Evolves .any 0 s.tasks s'.tasks) (fun s => ⟨List.forall_mem_nil _, .refl ..⟩) ?_ ?_ ?_ wf c).1
  · rintro s s' s'' ms ms' ⟨asked, moves⟩ ⟨asked', moves'⟩
    exact ⟨List.forall_mem_append.mpr ⟨asked, fun m hm => (asked' m hm).of_evolves moves⟩, moves.trans moves'⟩
  · exact fun s a report wf =>
      ⟨schedule_asks s wf a report, (schedule_evolves s wf a report fun _ _ => trivial).1⟩
  · exact fun s report _ => ⟨List.forall_mem_nil _, observe_evolves s report⟩

theorem subject_not_ended (s : Scheduler σ δ ν) (wf : ∀ t ∈ s.tasks, t.WellFormed)
    (ordered : ∀ t ∈ s.tasks, t.InOrder) (c : Call) : ∀ m ∈ s.moments c,
      ∃ t, s.tasks[m.request.owner]? = some t ∧ ¬t.Ended ∧
        ∀ h, m.request.handle? = some h → h.task = t.name := by
  intro m hm
  obtain ⟨ts, evolves, t', a, ht', ready, handle⟩ := moments_ask s wf c m hm
  obtain ⟨t, ht, moves⟩ := evolves.origin ht'
  have hm := List.mem_of_getElem? ht
  refine ⟨t, ht, fun ended => ?_, fun h hh => (handle h hh).trans moves.name_eq⟩
  have wf' := moves.wellFormed (wf t hm)
  have unready := (moves.ended (wf t hm) ended).not_ready wf' (moves.inOrder (wf t hm) (ordered t hm)) a
  rw [unready] at ready
  cases ready

/-! ## Failure -/

theorem eq_of_name {ts : List Task} (distinct : (ts.map (·.name)).Nodup) {i j : Nat} {t u : Task}
    (hi : ts[i]? = some t) (hj : ts[j]? = some u) (h : t.name = u.name) : i = j := by
  obtain ⟨lt, -⟩ := List.getElem?_eq_some_iff.mp hi
  refine (List.getElem?_inj (by rwa [List.length_map]) distinct).mp ?_
  rw [List.getElem?_map, List.getElem?_map, hi, hj, Option.map_some, Option.map_some, h]

/-- Once a unit of a task or its comparison has failed, the task is failed for good: in no later
call is it submitted, judged or recorded, and deriving its progress anew always yields failed. -/
theorem failure_is_final {tasks : List Task} (fresh : ∀ t ∈ tasks, t.Fresh)
    (distinct : (tasks.map (·.name)).Nodup) {plan : Plan} {gate : Gate} {log : FailoverLog σ} {d : δ}
    {v : ν} {s : Scheduler σ δ ν} (run : Reaches .any (Scheduler.new plan tasks gate log d v) s)
    {i : Nat} {t : Task} (at_i : s.tasks[i]? = some t)
    (failed : (∃ b ∈ t.stages, ∃ u ∈ b.units, u.progress = .failed) ∨
      ∃ b ∈ t.stages, b.action = .compareResults ∧ b.progress = .failed)
    {s' : Scheduler σ δ ν} (later : Reaches .any s s') :
    (∃ t', s'.tasks[i]? = some t' ∧ t'.name = t.name ∧ t'.refresh.progress = .failed) ∧
    ∀ c, Exchange s'.counts 0 s'.outside (s'.moments c) (s'.perform c).outside ∧
      (∀ m ∈ s'.moments c, m.request.owner ≠ i ∧ ∀ h, m.request.handle? = some h → h.task ≠ t.name) ∧
      ∃ added, s'.log.Adds added (s'.perform c).log ∧ t.name ∉ added := by
  have start := new_wellFormed fresh plan gate log d v
  have wf := (run.evolves start).wellFormed start
  have evolves := later.evolves wf
  have wf' := evolves.wellFormed wf
  have ordered' : ∀ u ∈ s'.tasks, u.InOrder :=
    evolves.inOrder wf ((run.evolves start).inOrder start (new_inOrder fresh plan gate log d v))
  have names' : s'.tasks.map (·.name) = tasks.map (·.name) := by
    rw [evolves.names_eq, (run.evolves start).names_eq, new_names]
  obtain ⟨t', at_i', moves⟩ := evolves.moves i t at_i
  have wf_t := wf t (List.mem_of_getElem? at_i)
  have hm' := List.mem_of_getElem? at_i'
  have failed' : t'.Failed := moves.failed wf_t (t.failed_of_part wf_t failed)
  refine ⟨⟨t', at_i', moves.name_eq, Task.progress_refresh_eq_failed_iff.mpr failed'⟩,
    fun c => ⟨perform_exchange s' wf' c, fun m hm => ?_, ?_⟩⟩
  · obtain ⟨u, hu, open_, handle⟩ := subject_not_ended s' wf' ordered' c m hm
    have other : m.request.owner ≠ i := by
      intro he
      rw [he, at_i'] at hu
      obtain rfl := Option.some.inj hu
      exact open_ ((Task.ended_iff (wf' t' hm')).mpr (Or.inr failed'))
    refine ⟨other, fun h hh he => other ?_⟩
    exact eq_of_name (names' ▸ distinct) hu at_i' (by rw [← handle h hh, he, moves.name_eq])
  · obtain ⟨added, adds, done⟩ := perform_sound s' wf' c
    refine ⟨added, adds, fun hn => ?_⟩
    have called := (perform_evolves (w := .any) s' wf' c fun _ _ => trivial).1
    -- a task of this name that is done would be this one, which has failed
    obtain ⟨u, hu, name, hd⟩ := done t.name hn
    obtain ⟨j, at_j⟩ := List.mem_iff_getElem?.mp hu
    obtain ⟨t'', at_i'', moves''⟩ := called.moves i t' at_i'
    have same : j = i := eq_of_name (called.names_eq ▸ names' ▸ distinct) at_j at_i''
      (by rw [name, moves''.name_eq, moves.name_eq])
    rw [same, at_i''] at at_j
    obtain rfl := Option.some.inj at_j
    exact hd.not_failed (moves''.failed (wf' t' hm') failed')

theorem oneTable_failed :
    ((((OneTable.start .hold).tick.1.finish (OneTable.unit "p=1") .failed).1.finish
      (OneTable.unit "p=2") .succeeded).2 = true) ∧
    ∃ t, (((OneTable.start .hold).tick.1.finish (OneTable.unit "p=1") .failed).1.finish
      (OneTable.unit "p=2") .succeeded).1.tasks[0]? = some t ∧ t.refresh.progress = .failed := by
  have ticked : Reaches .any (OneTable.start .hold) (OneTable.start .hold).tick.1 :=
    .single (.call .tick fun _ _ => trivial)
  have run := ticked.tail (.settle (h := OneTable.unit "p=1") (by decide) (o := .failed) trivial)
  have later := Relation.ReflTransGen.single
    (Step.settle (w := .any) (s := ((OneTable.start .hold).tick.1.finish (OneTable.unit "p=1") .failed).1)
      (h := OneTable.unit "p=2") (by decide) (o := .succeeded) trivial)
  obtain ⟨⟨t, found, -, failed⟩, -⟩ := failure_is_final OneTable.tasks_fresh (List.nodup_singleton _) run
    (i := 0) rfl (Or.inl ⟨_, List.mem_cons_self .., _, List.mem_cons_self .., rfl⟩) later
  exact ⟨by decide, t, found, failed⟩

end Scheduler

end TableMigration
