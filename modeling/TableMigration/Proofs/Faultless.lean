import TableMigration.Proofs.Endings

/-!
# Runs without faults

While nothing is refused, a task that is admitted has all its new units started, so that between calls a
stage is either untouched or has none that waits. While moreover the validator does not crash, every call
comes to its end, and the task is settled in the end, so that after a tick whatever is stored is up to
date.
-/

namespace TableMigration

def Conduct.faultless : Conduct where
  answers
    | .submit _ (.refused _) => False
    | .validate _ _ (.crashed _) => False
    | _ => True
  settles _ _ _ _ := True
  settles_of_finished _ _ _ := trivial

def Conduct.accepting : Conduct where
  answers
    | .submit _ (.refused _) => False
    | _ => True
  settles _ _ _ _ := True
  settles_of_finished _ _ _ := trivial

theorem Conduct.faultless_iff {q : Request} : faultless.answers q ↔
    accepting.answers q ∧ ∀ owner a payload, q ≠ .validate owner a (.crashed payload) := by
  rcases q with ⟨h, receipt⟩ | ⟨owner, a, _ | _ | payload⟩
  · cases receipt with
    | running => simp [faultless, accepting]
    | finished o => simp [faultless, accepting]
    | refused e => simp [faultless, accepting]
  · simp [faultless, accepting]
  · simp [faultless, accepting]
  · simp [faultless, accepting]

instance (q : Request) : Decidable (Conduct.faultless.answers q) :=
  match q with
  | .submit _ (.refused _) => .isFalse id
  | .submit _ .running => .isTrue trivial
  | .submit _ (.finished _) => .isTrue trivial
  | .validate _ _ (.crashed _) => .isFalse id
  | .validate _ _ .passed => .isTrue trivial
  | .validate _ _ .rejected => .isTrue trivial

/-! ## Units that wait -/

namespace Stage

theorem mem_newIds {s : Stage} {id : String} :
    id ∈ s.newIds ↔ ∃ u ∈ s.units, u.progress = .new ∧ u.id = id := by
  simp [newIds, and_assoc]

theorem newIds_eq_nil_iff {s : Stage} : s.newIds = [] ↔ ∀ u ∈ s.units, u.progress ≠ .new := by
  simp [newIds]

theorem newIds_setUnit {s : Stage} {id j : String} {p : Progress} (hp : p ≠ .new)
    (h : j ∈ (s.setUnit id p).newIds) : j ∈ s.newIds ∧ j ≠ id := by
  obtain ⟨u, hu, new, rfl⟩ := mem_newIds.mp h
  rcases mem_units_setUnit hu with rfl | ⟨hu, ne⟩
  · exact absurd new hp
  · exact ⟨mem_newIds.mpr ⟨u, hu, new, rfl⟩, ne⟩

theorem Change.newIds_subset {w : Conduct} {owner : Nat} {cleared : Prop} {s s' : Stage}
    (ch : s.Change w owner cleared s') : s'.newIds ⊆ s.newIds := by
  intro j hj
  cases ch with
  | start _ _ => exact (newIds_setUnit (by decide) hj).1
  | @settle _ o _ _ => exact (newIds_setUnit (by cases o <;> decide) hj).1
  | judge _ _ _ _ => exact hj

/-- All units of the stage are new, or none is. -/
def Whole (s : Stage) : Prop :=
  (∀ u ∈ s.units, u.progress = .new) ∨ s.newIds = []

theorem whole_of_not_waiting {s s' : Stage} (h : s.newIds = []) (sub : s'.newIds ⊆ s.newIds) :
    s'.Whole := by
  rw [h, List.subset_nil] at sub
  exact Or.inr sub

theorem Whole.settle {s : Stage} (h : s.Whole) {id : String} (o : Outcome)
    (running : s.unitProgress? id = some .running) : (s.setUnit id o.progress).Whole := by
  obtain ⟨u, hu, hp⟩ := Option.map_eq_some_iff.mp running
  have none : s.newIds = [] := h.resolve_left fun new => by
    rw [new u (List.mem_of_find?_eq_some hu)] at hp
    cases hp
  exact whole_of_not_waiting none fun j hj => (newIds_setUnit (by cases o <;> decide) hj).1

end Stage

namespace Task

def Whole (t : Task) : Prop :=
  ∀ s ∈ t.stages, s.Whole

theorem Whole.refresh {t : Task} (h : t.Whole) : t.refresh.Whole :=
  forall_mem_refreshStages (P := Stage.Whole) (fun _ hs => hs) h

theorem Whole.finish {t : Task} (wf : t.WellFormed) (h : t.Whole) (a : Action) (id : String)
    (o : Outcome) : (t.finish a id o).1.Whole := by
  rcases finish_cases wf a id o with he | ⟨s, hs, -, running, he⟩
  · rw [he]
    exact h
  · rw [he]
    exact forall_mem_replace ((h s hs).settle o running) h

theorem Whole.judge {t : Task} (h : t.Whole) {s : Stage} (hs : s ∈ t.stages) (p : Progress) :
    (t.replace { s with progress := p }).Whole :=
  forall_mem_replace (P := Stage.Whole) (h s hs) h

theorem Moves.not_waiting {w : Conduct} {owner : Nat} {t t' : Task} (wf : t.WellFormed)
    (moves : t.Moves w owner t') {a : Action} {id : String}
    (h : ∀ s ∈ t.stages, s.action = a → id ∉ s.newIds) :
    ∀ s ∈ t'.stages, s.action = a → id ∉ s.newIds :=
  moves.keeps_stages (P := fun s => s.action = a → id ∉ s.newIds) wf (fun _ hs => hs)
    (fun _ ch hs ha hid => hs (ch.action_eq ▸ ha) (ch.newIds_subset hid)) h

theorem not_waiting_of_start {t : Task} (wf : t.WellFormed) {a : Action} {id : String}
    (h : t.start a id = .ok none) : ∀ s ∈ t.stages, s.action = a → id ∉ s.newIds := by
  rintro s hs rfl hid
  obtain ⟨u, hu, new, rfl⟩ := Stage.mem_newIds.mp hid
  have found := Stage.unitProgress?_of_mem (wf.stages s hs).nodup hu
  rw [new] at found
  simp [start, wf.stage?_of_mem hs, Stage.start?, found] at h

theorem not_waiting_of_started {t t' : Task} {a : Action} {id : String}
    (h : t.start a id = .ok (some t')) : ∀ s ∈ t'.stages, s.action = a → id ∉ s.newIds := by
  obtain ⟨b, -, rfl, -, rfl⟩ := start_eq_some h
  intro s hs ha hid
  rcases mem_replace hs with rfl | ⟨-, ne⟩
  · exact (Stage.newIds_setUnit (by decide) hid).2 rfl
  · exact ne ha

/-! ## Refreshing twice -/

theorem refreshStages_idem (ss : List Stage) : refreshStages (refreshStages ss) = refreshStages ss := by
  induction ss with
  | nil => rfl
  | cons s rest ih =>
    have live : s.refresh.refresh = s.refresh := by
      rw [Stage.refresh, Stage.refresh_liveProgress]
      rfl
    rw [refreshStages_cons, refreshStages_cons, live, Stage.refresh_liveProgress]
    by_cases failed : s.liveProgress = .failed
    · rw [if_pos failed, if_pos failed]
    · rw [if_neg failed, if_neg failed, ih]

theorem refresh_refresh (t : Task) : t.refresh.refresh = t.refresh := by
  have same : refreshStages t.refresh.stages = t.refresh.stages := refreshStages_idem t.stages
  rw [refresh, same]
  rfl

end Task

/-! ## Rounds -/

namespace Round

variable {σ δ ν : Type}

section
variable [Dispatcher δ] (owner : Nat) (a : Action) {t : Task}

theorem submit_asks (t : Task) (d : δ) (ids : List String) :
    ∀ m ∈ submitMoments owner a t d ids, ∃ h receipt, m.2 = .submit h receipt := by
  fun_induction submitMoments owner a t d ids with
  | case1 => exact List.forall_mem_nil _
  | case2 => exact List.forall_mem_nil _
  | case3 t d id ids hs ih => exact ih
  | case4 t d id ids t' hs h d' receipt hd running finished =>
    refine List.forall_mem_cons.mpr ⟨⟨h, receipt, rfl⟩, ?_⟩
    cases receipt with
    | refused e => exact List.forall_mem_nil _
    | running => exact running
    | finished o => exact finished o

theorem submit_faultless_iff (t : Task) (d : δ) (ids : List String) :
    (∀ m ∈ submitMoments owner a t d ids, Conduct.faultless.answers m.2) ↔
      ∀ m ∈ submitMoments owner a t d ids, Conduct.accepting.answers m.2 := by
  refine forall₂_congr fun m hm => ?_
  obtain ⟨h, receipt, asked⟩ := submit_asks owner a t d ids m hm
  rw [Conduct.faultless_iff, asked]
  exact and_iff_left nofun

theorem submit_completes_iff (wf : t.WellFormed) (present : a ∈ t.actions) (r : Round σ δ ν)
    (ids : List String) : (r.submit owner a t ids).2.2 = none ↔
      ∀ m ∈ submitMoments owner a t r.dispatcher ids, Conduct.accepting.answers m.2 := by
  fun_induction Round.submit owner a t r ids with
  | case1 t r => exact iff_of_true rfl (List.forall_mem_nil _)
  | case2 t r id ids f hs => exact absurd hs (Task.start_ne_error present id f)
  | case3 t r id ids hs ih =>
    simp only [submitMoments, hs]
    exact ih wf present
  | case4 t r id ids t' hs h d r' e hd =>
    rw [submitMoments_of_start hs hd, List.forall_mem_cons]
    exact iff_of_false (Option.some_ne_none _) fun conduct => conduct.1
  | case5 t r id ids t' hs h d r' admitted hd ih =>
    rw [submitMoments_of_start hs hd, List.forall_mem_cons]
    have rest := ih (wf.start hs) (Task.actions_eq_of_shape (Task.start_shape wf hs) ▸ present)
    exact rest.trans (and_iff_right trivial).symm
  | case6 t r id ids t' hs h d r' admitted o hd ih =>
    rw [submitMoments_of_start hs hd, List.forall_mem_cons]
    have shape := (Task.finish_shape (wf.start hs) a id o).trans (Task.start_shape wf hs)
    have rest := ih ((wf.start hs).finish a id o) (Task.actions_eq_of_shape shape ▸ present)
    exact rest.trans (and_iff_right trivial).symm

theorem submit_starts (wf : t.WellFormed) (cleared : t.Cleared a) (present : a ∈ t.actions)
    (r : Round σ δ ν) (ids : List String) (ok : (r.submit owner a t ids).2.2 = none) :
    ∀ id ∈ ids, ∀ s ∈ (r.submit owner a t ids).1.stages, s.action = a → id ∉ s.newIds := by
  have rest : ∀ {t : Task} (r : Round σ δ ν) ids, t.WellFormed → t.Cleared a → a ∈ t.actions →
      t.Moves .any owner (r.submit owner a t ids).1 := fun r ids wf cleared present =>
    (submit_moves owner a wf cleared present r ids fun _ _ => trivial).1
  -- a unit that was started stays started while the others are gone through
  fun_induction Round.submit owner a t r ids with
  | case1 t r => exact List.forall_mem_nil _
  | case2 t r id ids f hs => cases ok
  | case3 t r id ids hs ih =>
    exact List.forall_mem_cons.mpr
      ⟨(rest r ids wf cleared present).not_waiting wf (Task.not_waiting_of_start wf hs),
        ih wf cleared present ok⟩
  | case4 t r id ids t' hs h d r' e hd => cases ok
  | case5 t r id ids t' hs h d r' admitted hd ih =>
    obtain ⟨-, wf', cleared', present'⟩ : t.Moves .any owner t' ∧ _ := start_keeps wf cleared present hs
    exact List.forall_mem_cons.mpr
      ⟨(rest admitted ids wf' cleared' present').not_waiting wf' (Task.not_waiting_of_started hs),
        ih wf' cleared' present' ok⟩
  | case6 t r id ids t' hs h d r' admitted o hd ih =>
    obtain ⟨-, wf', cleared', present'⟩ : t.Moves .any owner t' ∧ _ := start_keeps wf cleared present hs
    have settled : t'.Moves .any owner (t'.finish a id o).1 := Task.moves_finish wf' trivial
    have wf'' := settled.wellFormed wf'
    have cleared'' := cleared'.finish wf' id o
    have present'' := Task.actions_eq_of_shape (settled.shape_eq wf') ▸ present'
    exact List.forall_mem_cons.mpr
      ⟨(rest admitted ids wf'' cleared'' present'').not_waiting wf''
        (settled.not_waiting wf' (Task.not_waiting_of_started hs)), ih wf'' cleared'' present'' ok⟩

theorem submit_others (wf : t.WellFormed) (r : Round σ δ ν) (ids : List String) :
    ∀ s ∈ (r.submit owner a t ids).1.stages, s.action ≠ a → s ∈ t.stages := by
  have started : ∀ {t t' : Task} {id : String}, t.start a id = .ok (some t') →
      ∀ s ∈ t'.stages, s.action ≠ a → s ∈ t.stages := fun hs s hm ne => by
    obtain ⟨b, -, rfl, -, rfl⟩ := Task.start_eq_some hs
    rcases Task.mem_replace hm with rfl | ⟨hm, -⟩
    · exact absurd rfl ne
    · exact hm
  fun_induction Round.submit owner a t r ids with
  | case1 t r => exact fun s hm _ => hm
  | case2 t r id ids f hs => exact fun s hm _ => hm
  | case3 t r id ids hs ih => exact ih wf
  | case4 t r id ids t' hs h d r' e hd => exact started hs
  | case5 t r id ids t' hs h d r' admitted hd ih =>
    exact fun s hm ne => started hs s (ih (wf.start hs) s hm ne) ne
  | case6 t r id ids t' hs h d r' admitted o hd ih =>
    intro s hm ne
    refine started hs s ?_ ne
    have back := ih ((wf.start hs).finish a id o) s hm ne
    rcases Task.finish_cases (wf.start hs) a id o with he | ⟨b, -, rfl, -, he⟩
    · rwa [he] at back
    · rw [he] at back
      rcases Task.mem_replace back with rfl | ⟨back, -⟩
      · exact absurd rfl ne
      · exact back

theorem submit_empties {a : Action} (wf : t.WellFormed) (cleared : t.Cleared a) {s : Stage}
    (hs : s ∈ t.stages) (ha : s.action = a) (r : Round σ δ ν) (ok : (r.submit owner a t s.newIds).2.2 = none) :
    ∀ s' ∈ (r.submit owner a t s.newIds).1.stages, s'.action = a → s'.newIds = [] := by
  have present : a ∈ t.actions := List.mem_map.mpr ⟨s, hs, ha⟩
  have moves := (submit_moves (w := .any) owner a wf cleared present r s.newIds fun _ _ => trivial).1
  intro s' hs' ha'
  refine List.eq_nil_iff_forall_not_mem.mpr fun id => ?_
  by_cases waiting : id ∈ s.newIds
  · exact submit_starts owner a wf cleared present r s.newIds ok id waiting s' hs' ha'
  · refine moves.not_waiting wf (fun b hb hba => ?_) s' hs' ha'
    rwa [wf.eq_of_action hb hs (hba.trans ha.symm)]

end

section
variable [NameStore σ] [Dispatcher δ] [Validator ν]

theorem admitTask_completes_iff {t : Task} (wf : t.WellFormed) (owner : Nat) (a : Action)
    (r : Round σ δ ν) : (∀ f, (r.admitTask owner a t).2.2 ≠ .fault f) ↔
      ∀ m ∈ admitMoments owner a t r, Conduct.faultless.answers m.2 := by
  have wf' := wf.of_shape (Task.shape_refresh t)
  have visit := admitTask_visit wf owner a r
  generalize r.admitTask owner a t = out, admitMoments owner a t r = ms at visit ⊢
  cases visit with
  | idle passed =>
    refine iff_of_true (fun f => ?_) (List.forall_mem_nil _)
    rcases passed with ⟨-, rfl⟩ | ⟨-, rfl⟩ <;> nofun
  | crash turn asked =>
    exact iff_of_false (fun h => h _ rfl) fun conduct => List.forall_mem_singleton.mp conduct
  | @judge _ passed _ turn compare empty asked =>
    refine iff_of_true nofun (List.forall_mem_singleton.mpr ?_)
    cases passed <;> trivial
  | skip turn gated empty => exact iff_of_true nofun (List.forall_mem_nil _)
  | @halt t' r' f s turn submitted =>
    have refused := submit_completes_iff owner a wf' turn.present r s.newIds
    rw [submitted, ← submit_faultless_iff] at refused
    exact iff_of_false (fun h => h f rfl) (mt refused.mpr nofun)
  | @work t' r' s turn _ submitted =>
    have completes := submit_completes_iff owner a wf' turn.present r s.newIds
    rw [submitted, ← submit_faultless_iff] at completes
    exact iff_of_true nofun (completes.mp rfl)

theorem admitTask_keeps {P : Task → Prop} (refresh : ∀ {t : Task}, P t → P t.refresh)
    (judge : ∀ {t : Task} {s : Stage} (p : Progress), P t → s ∈ t.stages →
      P (t.replace { s with progress := p }))
    {t : Task} (wf : t.WellFormed) (owner : Nat) (a : Action) (r : Round σ δ ν) (h : P t)
    (work : ∀ s, r.Turn a t.refresh s →
      admitMoments owner a t r = submitMoments owner a t.refresh r.dispatcher s.newIds →
      P (r.submit owner a t.refresh s.newIds).1) : P (r.admitTask owner a t).1 := by
  have visit := admitTask_visit wf owner a r
  generalize r.admitTask owner a t = out, admitMoments owner a t r = ms at visit work ⊢
  cases visit with
  | idle passed => exact refresh h
  | crash turn asked => exact refresh h
  | judge turn compare empty asked =>
    rw [conclude_task]
    exact refresh (judge _ (refresh h) turn.found)
  | skip turn gated empty =>
    rw [conclude_task]
    exact refresh (judge _ (refresh h) turn.found)
  | halt turn submitted =>
    have kept := work _ turn rfl
    rwa [submitted] at kept
  | work turn _ submitted =>
    have kept := work _ turn rfl
    rw [submitted] at kept
    rw [conclude_task]
    exact refresh kept

theorem admitTask_whole {t : Task} (wf : t.WellFormed) (owner : Nat) (a : Action) (r : Round σ δ ν)
    (conduct : ∀ m ∈ admitMoments owner a t r, Conduct.accepting.answers m.2) (h : t.Whole) :
    (r.admitTask owner a t).1.Whole := by
  refine admitTask_keeps (P := Task.Whole) (·.refresh) (fun p h hs => h.judge hs p) wf owner a r h
    fun s turn asked b hb => ?_
  have wf' := wf.of_shape (Task.shape_refresh t)
  rw [asked] at conduct
  have completes := (submit_completes_iff owner a wf' turn.present r s.newIds).mpr conduct
  by_cases ha : b.action = a
  · exact Or.inr (submit_empties owner wf' turn.cleared turn.found turn.action_eq r completes b hb ha)
  · exact h.refresh b (submit_others owner a wf' r s.newIds b hb ha)

theorem admitTask_refreshed {t : Task} (wf : t.WellFormed) (owner : Nat) (a : Action) (r : Round σ δ ν)
    (conduct : ∀ m ∈ admitMoments owner a t r, Conduct.faultless.answers m.2) :
    (r.admitTask owner a t).1.refresh = (r.admitTask owner a t).1 := by
  have completes := (admitTask_completes_iff wf owner a r).mpr conduct
  have visit := admitTask_visit wf owner a r
  generalize r.admitTask owner a t = out, admitMoments owner a t r = ms at visit completes ⊢
  cases visit with
  | idle passed => exact t.refresh_refresh
  | crash turn asked => exact t.refresh_refresh
  | judge turn compare empty asked => rw [conclude_task, Task.refresh_refresh]
  | skip turn gated empty => rw [conclude_task, Task.refresh_refresh]
  | halt turn submitted => exact absurd rfl (completes _)
  | work turn _ submitted => rw [conclude_task, Task.refresh_refresh]

theorem run_completes_iff (a : Action) (owner : Nat) (r : Round σ δ ν) (ts : List Task)
    (wf : ∀ t ∈ ts, t.WellFormed) : (r.run a owner ts).2.2 = none ↔
      ∀ m ∈ r.moments a owner ts, Conduct.faultless.answers m.request := by
  refine run_induction (R := fun _ _ _ ms out => out.2.2 = none ↔
    ∀ m ∈ ms, Conduct.faultless.answers m.request) ?_ ?_ ?_ owner r wf
  · exact fun _ _ => iff_of_true rfl (List.forall_mem_nil _)
  · intro owner r t ts ms out hwf _ course rest
    have here := (admitTask_completes_iff hwf owner a r).mp (by rw [course]; exact nofun)
    rw [List.forall_mem_append, List.forall_mem_map, List.forall_mem_map, rest]
    exact (and_iff_right here).symm
  · intro owner r t ts hwf _
    rw [List.forall_mem_map, ← admitTask_completes_iff hwf owner a r]
    cases (r.admitTask owner a t).2.2 with
    | fault f => exact iff_of_false (Option.some_ne_none f) fun h => h f rfl
    | next | closed => exact iff_of_true rfl nofun

end

end Round

/-! ## What every admission keeps -/

section
variable {σ δ ν : Type} [NameStore σ] [Dispatcher δ] [Validator ν] {w : Conduct} {P : Task → Prop}
  (admitted : ∀ {t : Task} (owner : Nat) (a : Action) (r : Round σ δ ν), t.WellFormed → P t →
    (∀ m ∈ Round.admitMoments owner a t r, w.answers m.2) → P (r.admitTask owner a t).1)
include admitted

theorem Round.run_keeps (a : Action) (owner : Nat) (r : Round σ δ ν) (ts : List Task)
    (wf : ∀ t ∈ ts, t.WellFormed) (conduct : ∀ m ∈ r.moments a owner ts, w.answers m.request)
    (h : ∀ t ∈ ts, P t) : ∀ t ∈ (r.run a owner ts).1, P t := by
  refine run_relates (R := fun _ _ ts ms ts' _ => (∀ m ∈ ms, w.answers m.request) → (∀ t ∈ ts, P t) →
    ∀ t ∈ ts', P t) (fun _ _ _ _ => id) ?_ owner r wf conduct h
  intro owner r t ts ms ts' r' hwf _ rest conduct h
  rw [List.forall_mem_append, List.forall_mem_map, List.forall_mem_map] at conduct
  obtain ⟨ht, hts⟩ := List.forall_mem_cons.mp h
  exact List.forall_mem_cons.mpr ⟨admitted owner a r hwf ht conduct.1, rest conduct.2 hts⟩

namespace Scheduler

theorem schedule_keeps (s : Scheduler σ δ ν) (wf : ∀ t ∈ s.tasks, t.WellFormed) (a : Action)
    (report : Report) (conduct : ∀ m ∈ s.scheduleMoments a report, w.answers m.request)
    (h : ∀ t ∈ s.tasks, P t) : ∀ t ∈ (s.schedule a report).1.tasks, P t := by
  rcases s.schedule_cases a report with ⟨window, he, hm⟩ | ⟨reason, he, -⟩
  · rw [hm] at conduct
    rw [he]
    exact Round.run_keeps admitted a 0 _ s.tasks wf conduct h
  · rw [he]
    exact h

theorem scheduleAll_keeps (actions : List Action) (s : Scheduler σ δ ν)
    (wf : ∀ t ∈ s.tasks, t.WellFormed) (report : Report)
    (conduct : ∀ m ∈ s.scheduleAllMoments report actions, w.answers m.request)
    (h : ∀ t ∈ s.tasks, P t) : ∀ t ∈ (s.scheduleAll report actions).1.tasks, P t := by
  refine scheduleAll_relates (R := fun s ms s' => (∀ m ∈ ms, w.answers m.request) → (∀ t ∈ s.tasks, P t) →
    ∀ t ∈ s'.tasks, P t) (fun _ _ => id) ?_ ?_ actions wf report conduct h
  · intro s s' s'' ms ms' first next conduct h
    obtain ⟨here, there⟩ := List.forall_mem_append.mp conduct
    exact next there (first here h)
  · exact fun s a report wf conduct => schedule_keeps admitted s wf a report conduct

theorem perform_keeps_tasks (refresh : ∀ t, P t → P t.refresh) (s : Scheduler σ δ ν)
    (wf : ∀ t ∈ s.tasks, t.WellFormed) (c : Call)
    (conduct : ∀ m ∈ s.moments c, w.answers m.request) (h : ∀ t ∈ s.tasks, P t) :
    ∀ t ∈ (s.perform c).tasks, P t := by
  refine perform_relates (R := fun s ms s' => (∀ m ∈ ms, w.answers m.request) → (∀ t ∈ s.tasks, P t) →
    ∀ t ∈ s'.tasks, P t) (fun _ _ => id) ?_ ?_ ?_ wf c conduct h
  · intro s s' s'' ms ms' first next conduct h
    obtain ⟨here, there⟩ := List.forall_mem_append.mp conduct
    exact next there (first here h)
  · exact fun s a report wf conduct => schedule_keeps admitted s wf a report conduct
  · intro s report _ _ h
    rw [observe_tasks]
    exact List.forall_mem_map.mpr fun t ht => refresh t (h t ht)

theorem Reaches.keeps_tasks (refresh : ∀ t, P t → P t.refresh)
    (finish : ∀ {t : Task} a id o, t.WellFormed → P t → P (t.finish a id o).1)
    {s s' : Scheduler σ δ ν} (wf : ∀ t ∈ s.tasks, t.WellFormed) (run : Reaches w s s')
    (h : ∀ t ∈ s.tasks, P t) : ∀ t ∈ s'.tasks, P t := by
  induction run with
  | refl => exact h
  | tail run step ih =>
    have wf' := (Reaches.evolves wf run).wellFormed wf
    cases step with
    | call c conduct => exact perform_keeps_tasks admitted refresh _ wf' c conduct ih
    | settle given settles =>
      intro t' ht'
      obtain ⟨i, at_i⟩ := List.mem_iff_getElem?.mp ht'
      obtain ⟨t, at_t, rfl | rfl⟩ := finish_origin at_i
      · exact ih t' (List.mem_of_getElem? at_t)
      · have ht := List.mem_of_getElem? at_t
        exact finish _ _ _ (wf' t ht) (ih t ht)
    | outside d v counts => exact ih

end Scheduler

end

/-! ## Calls without faults -/

namespace Scheduler

variable {σ δ ν : Type} [NameStore σ] [Dispatcher δ] [Validator ν]

theorem schedule_completes_iff (s : Scheduler σ δ ν) (wf : ∀ t ∈ s.tasks, t.WellFormed) (a : Action)
    (report : Report) : (s.schedule a report).2.2 = none ↔
      ∀ m ∈ s.scheduleMoments a report, Conduct.faultless.answers m.request := by
  rcases s.schedule_cases a report with ⟨window, he, hm⟩ | ⟨reason, he, hm⟩
  · rw [he, hm]
    exact Round.run_completes_iff a 0 _ s.tasks wf
  · rw [he, hm]
    exact iff_of_true rfl (List.forall_mem_nil _)

theorem scheduleAll_completes_iff (actions : List Action) {s : Scheduler σ δ ν}
    (wf : ∀ t ∈ s.tasks, t.WellFormed) (report : Report) :
    (∃ result, (s.scheduleAll report actions).2 = .ok result) ↔
      ∀ m ∈ s.scheduleAllMoments report actions, Conduct.faultless.answers m.request := by
  refine scheduleAll_induction (R := fun _ _ _ ms out => (∃ result, out.2 = .ok result) ↔
    ∀ m ∈ ms, Conduct.faultless.answers m.request) ?_ ?_ ?_ actions wf report
  · exact fun _ report => iff_of_true ⟨report, rfl⟩ (List.forall_mem_nil _)
  · intro s a _ report ms out wf done rest
    rw [List.forall_mem_append, ← schedule_completes_iff s wf a report, rest]
    exact (and_iff_right done).symm
  · intro s a _ report f wf fault
    rw [← schedule_completes_iff s wf a report, fault]
    exact iff_of_false nofun (Option.some_ne_none f)

/-- A tick gives a report exactly if nothing it asks for is refused or crashes. -/
theorem tick_completes_iff (s : Scheduler σ δ ν) (wf : ∀ t ∈ s.tasks, t.WellFormed) :
    (∃ report, s.tick.2 = .ok report) ↔
      ∀ m ∈ s.moments .tick, Conduct.faultless.answers m.request := by
  have moves := observe_evolves (w := .any) s .empty
  rcases s.tick_cases with ⟨-, hm, he⟩ | ⟨s', result, done, hm, he⟩
  · rw [he, hm]
    exact iff_of_true ⟨_, rfl⟩ (List.forall_mem_nil _)
  · have all := scheduleAll_completes_iff s.plan.actions (moves.wellFormed wf) (s.observe .empty).2.1
    rw [he, hm, ← all, done]
    constructor
    · rintro ⟨report, made⟩
      obtain ⟨result, same, -⟩ := map_eq_ok made
      exact ⟨result, same⟩
    · rintro ⟨result, same⟩
      exact ⟨_, congrArg (Except.map _) same⟩

theorem tick_refreshed (s : Scheduler σ δ ν) (wf : ∀ t ∈ s.tasks, t.WellFormed)
    (conduct : ∀ m ∈ s.moments .tick, Conduct.faultless.answers m.request) :
    ∀ t ∈ s.tick.1.tasks, t.refresh = t := by
  have seen : ∀ t ∈ (s.observe .empty).1.tasks, t.refresh = t := by
    rw [observe_tasks]
    exact List.forall_mem_map.mpr fun t _ => t.refresh_refresh
  have moves := observe_evolves (w := .any) s .empty
  rcases s.tick_cases with ⟨-, -, he⟩ | ⟨s', result, done, hm, he⟩
  · rw [he]
    exact seen
  · rw [hm] at conduct
    have kept := scheduleAll_keeps (P := fun t => t.refresh = t)
      (fun owner a r wf _ conduct => Round.admitTask_refreshed wf owner a r conduct) s.plan.actions _
      (moves.wellFormed wf) (s.observe .empty).2.1 conduct seen
    rw [done] at kept
    rw [he]
    exact kept

theorem Reaches.whole {s s' : Scheduler σ δ ν} (wf : ∀ t ∈ s.tasks, t.WellFormed)
    (run : Reaches .accepting s s') (h : ∀ t ∈ s.tasks, t.Whole) : ∀ t ∈ s'.tasks, t.Whole :=
  run.keeps_tasks (fun owner a r wf h conduct => Round.admitTask_whole wf owner a r conduct h)
    (fun _ h => h.refresh) (fun a id o wf h => h.finish wf a id o) wf h

omit [NameStore σ] [Dispatcher δ] [Validator ν] in
theorem new_whole {tasks : List Task} (fresh : ∀ t ∈ tasks, t.Fresh) (plan : Plan) (gate : Gate)
    (log : FailoverLog σ) (d : δ) (v : ν) : ∀ t ∈ (Scheduler.new plan tasks gate log d v).tasks, t.Whole := by
  apply new_keeps
  · intro t ht s hs
    exact Or.inl ((fresh t ht).stage_new hs).2
  · intro t _
    refine List.forall_mem_map.mpr fun s _ => Or.inr ?_
    exact Stage.newIds_eq_nil_iff.mpr (List.forall_mem_map.mpr fun u _ => nofun)

end Scheduler

end TableMigration
