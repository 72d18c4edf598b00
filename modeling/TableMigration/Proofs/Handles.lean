import TableMigration.Proofs.Runs

/-!
# Running units are in someone's hands

A unit is set running only to be submitted, and every submission leaves a handle. Whatever runs can
therefore be settled: when no handle given out is of a running unit, nothing runs.
-/

namespace TableMigration

namespace Task

/-- Every unit of the task at position `owner` that runs has its handle among these. -/
def Handed (owner : Nat) (handles : List Handle) (t : Task) : Prop :=
  ∀ s ∈ t.stages, ∀ u ∈ s.units, u.progress = .running → ⟨⟨t.name, s.action, u.id⟩, owner⟩ ∈ handles

def Still (t : Task) : Prop :=
  ∀ s ∈ t.stages, ∀ u ∈ s.units, u.progress ≠ .running

instance (t : Task) : Decidable t.Still :=
  inferInstanceAs (Decidable (∀ s ∈ t.stages, ∀ u ∈ s.units, u.progress ≠ .running))

variable {owner : Nat} {handles handles' : List Handle} {t t' : Task}

theorem Handed.mono (h : t.Handed owner handles) (sub : handles ⊆ handles') : t.Handed owner handles' :=
  fun s hs u hu running => sub (h s hs u hu running)

theorem Still.handed (h : t.Still) : t.Handed owner handles :=
  fun s hs u hu running => absurd running (h s hs u hu)

theorem Handed.refresh (h : t.Handed owner handles) : t.refresh.Handed owner handles :=
  forall_mem_refreshStages (P := fun s => ∀ u ∈ s.units, u.progress = .running →
    (⟨⟨t.name, s.action, u.id⟩, owner⟩ : Handle) ∈ handles) (fun _ hs => hs) h

theorem Handed.judge (h : t.Handed owner handles) {s : Stage} (hs : s ∈ t.stages) (p : Progress) :
    (t.replace { s with progress := p }).Handed owner handles :=
  forall_mem_replace (P := fun s => ∀ u ∈ s.units, u.progress = .running →
    (⟨⟨t.name, s.action, u.id⟩, owner⟩ : Handle) ∈ handles) (h s hs) h

theorem Handed.start (h : t.Handed owner handles) {a : Action} {id : String}
    (hs : t.start a id = .ok (some t')) :
    t'.Handed owner (handles ++ [⟨⟨t'.name, a, id⟩, owner⟩]) := by
  obtain ⟨s, hm, rfl, -, rfl⟩ := start_eq_some hs
  intro b hb u hu running
  rcases mem_replace hb with rfl | ⟨hb, -⟩
  · rcases Stage.mem_units_setUnit hu with rfl | ⟨hu, -⟩
    · exact List.mem_append_right _ (List.mem_singleton_self _)
    · exact List.mem_append_left _ (h s hm u hu running)
  · exact List.mem_append_left _ (h b hb u hu running)

theorem Handed.finish (h : t.Handed owner handles) (wf : t.WellFormed) (a : Action) (id : String)
    (o : Outcome) : (t.finish a id o).1.Handed owner handles := by
  rcases finish_cases wf a id o with he | ⟨s, hs, rfl, -, he⟩
  · rw [he]
    exact h
  · rw [he]
    intro b hb u hu running
    rcases mem_replace hb with rfl | ⟨hb, -⟩
    · rcases Stage.mem_units_setUnit hu with rfl | ⟨hu, -⟩
      · cases o <;> cases running
      · exact h s hs u hu running
    · exact h b hb u hu running

end Task

def AllHanded (k : Nat) (handles : List Handle) (ts : List Task) : Prop :=
  ∀ (i : Nat) (t : Task), ts[i]? = some t → t.Handed (k + i) handles

namespace AllHanded

variable {k : Nat} {handles handles' : List Handle} {t : Task} {ts : List Task}

theorem mono (h : AllHanded k handles ts) (sub : handles ⊆ handles') : AllHanded k handles' ts :=
  fun i t ht => (h i t ht).mono sub

theorem cons (head : t.Handed k handles) (rest : AllHanded (k + 1) handles ts) :
    AllHanded k handles (t :: ts) := by
  intro i u hu
  cases i with
  | zero =>
    obtain rfl := Option.some.inj hu
    exact head
  | succ i =>
    rw [← Nat.add_assoc, Nat.add_right_comm]
    exact rest i u hu

theorem tail (h : AllHanded k handles (t :: ts)) : AllHanded (k + 1) handles ts := by
  intro i u hu
  rw [Nat.add_right_comm]
  exact h (i + 1) u hu

end AllHanded

namespace Round

variable {σ δ ν : Type}

theorem submit_handed [Dispatcher δ] (owner : Nat) (a : Action) {t : Task} (wf : t.WellFormed)
    (r : Round σ δ ν) (ids : List String) (h : t.Handed owner r.handles) :
    (r.submit owner a t ids).1.Handed owner (r.submit owner a t ids).2.1.handles ∧
      r.handles ⊆ (r.submit owner a t ids).2.1.handles := by
  fun_induction Round.submit owner a t r ids with
  | case1 t r => exact ⟨h, List.Subset.refl _⟩
  | case2 t r id ids f hs => exact ⟨h, List.Subset.refl _⟩
  | case3 t r id ids hs ih => exact ih wf h
  | case4 t r id ids t' hs g d r' e hd => exact ⟨h.start hs, List.subset_append_left ..⟩
  | case5 t r id ids t' hs g d r' admitted hd ih =>
    obtain ⟨handed, grown⟩ := ih (wf.start hs) (h.start hs)
    exact ⟨handed, fun g hg => grown (List.mem_append_left _ hg)⟩
  | case6 t r id ids t' hs g d r' admitted o hd ih =>
    have wf' := wf.start hs
    obtain ⟨handed, grown⟩ := ih (wf'.finish a id o) ((h.start hs).finish wf' a id o)
    exact ⟨handed, fun g hg => grown (List.mem_append_left _ hg)⟩

variable [NameStore σ] [Dispatcher δ] [Validator ν]

theorem admitTask_handed {t : Task} (wf : t.WellFormed) (owner : Nat) (a : Action) (r : Round σ δ ν)
    (h : t.Handed owner r.handles) :
    (r.admitTask owner a t).1.Handed owner (r.admitTask owner a t).2.1.handles ∧
      r.handles ⊆ (r.admitTask owner a t).2.1.handles := by
  have wf' := wf.of_shape (Task.shape_refresh t)
  have visit := admitTask_visit wf owner a r
  generalize r.admitTask owner a t = out, admitMoments owner a t r = ms at visit ⊢
  cases visit with
  | idle passed => exact ⟨h.refresh, List.Subset.refl _⟩
  | crash turn asked => exact ⟨h.refresh, List.Subset.refl _⟩
  | judge turn compare empty asked =>
    rw [conclude_task]
    exact ⟨(h.refresh.judge turn.found _).refresh, List.Subset.refl _⟩
  | skip turn gated empty =>
    rw [conclude_task]
    exact ⟨(h.refresh.judge turn.found _).refresh, List.Subset.refl _⟩
  | @halt t' r' f s turn submitted =>
    have handed := submit_handed owner a wf' r s.newIds h.refresh
    rwa [submitted] at handed
  | @work t' r' s turn _ submitted =>
    obtain ⟨handed, grown⟩ := submit_handed owner a wf' r s.newIds h.refresh
    rw [submitted] at handed grown
    rw [conclude_task]
    exact ⟨handed.refresh, grown⟩

theorem run_handed (a : Action) (owner : Nat) (r : Round σ δ ν) (ts : List Task)
    (wf : ∀ t ∈ ts, t.WellFormed) (h : AllHanded owner r.handles ts) :
    AllHanded owner (r.run a owner ts).2.1.handles (r.run a owner ts).1 ∧
      r.handles ⊆ (r.run a owner ts).2.1.handles := by
  refine run_relates (R := fun owner r ts _ ts' r' => AllHanded owner r.handles ts →
    AllHanded owner r'.handles ts' ∧ r.handles ⊆ r'.handles) (fun _ _ _ h => ⟨h, List.Subset.refl _⟩) ?_
    owner r wf h
  intro owner r t ts ms ts' r' hwf _ rest h
  obtain ⟨head, grown⟩ := admitTask_handed hwf owner a r (h 0 t rfl)
  obtain ⟨later, grown'⟩ := rest (h.tail.mono grown)
  exact ⟨.cons (head.mono grown') later, fun g hg => grown' (grown hg)⟩

end Round

namespace Scheduler

variable {σ δ ν : Type}

structure Handed (s : Scheduler σ δ ν) : Prop where
  wellFormed : ∀ t ∈ s.tasks, t.WellFormed
  handed : AllHanded 0 s.handles s.tasks

section
variable {tasks : List Task} (fresh : ∀ t ∈ tasks, t.Fresh) (plan : Plan) (gate : Gate)
  (log : FailoverLog σ) (d : δ) (v : ν)
include fresh

theorem new_still : ∀ t ∈ (Scheduler.new plan tasks gate log d v).tasks, t.Still := by
  refine new_keeps (fun t ht s hs u hu => ?_) (fun t _ => ?_) plan gate log d v
  · rw [((fresh t ht).stage_new hs).2 u hu]
    decide
  · exact List.forall_mem_map.mpr fun s _ => List.forall_mem_map.mpr fun u _ => nofun

theorem new_handed : (Scheduler.new plan tasks gate log d v).Handed :=
  ⟨new_wellFormed fresh plan gate log d v, fun _ t ht =>
    (new_still fresh plan gate log d v t (List.mem_of_getElem? ht)).handed⟩

end

variable {s : Scheduler σ δ ν}

theorem Handed.finish (h : s.Handed) (g : Handle) (o : Outcome) : (s.finish g o).1.Handed := by
  have wf := (finish_evolves (w := .any) s h.wellFormed g o trivial).wellFormed h.wellFormed
  refine ⟨wf, fun i t' ht' => ?_⟩
  have same : (s.finish g o).1.handles = s.handles := by rw [finish_eq]
  rw [same]
  obtain ⟨t, ht, rfl | rfl⟩ := finish_origin ht'
  · exact h.handed i t' ht
  · exact (h.handed i t ht).finish (h.wellFormed t (List.mem_of_getElem? ht)) g.action g.unit o

theorem Handed.still (h : s.Handed) (settled : ∀ g ∈ s.handles, s.progress? g ≠ some .running) :
    ∀ t ∈ s.tasks, t.Still := by
  intro t ht b hb u hu running
  obtain ⟨i, at_i⟩ := List.mem_iff_getElem?.mp ht
  have wf := h.wellFormed t ht
  have given := h.handed i t at_i b hb u hu running
  rw [Nat.zero_add] at given
  refine settled _ given ?_
  have read := Stage.unitProgress?_of_mem (wf.stages b hb).nodup hu
  simp only [progress?, at_i, Option.bind_some, Task.unitProgress?, wf.stage?_of_mem hb, read, running]

section
variable [NameStore σ]

theorem Handed.observe (h : s.Handed) (report : Report) : (s.observe report).1.Handed := by
  refine ⟨(observe_evolves (w := .any) s report).wellFormed h.wellFormed, fun i t ht => ?_⟩
  rw [observe_tasks, List.getElem?_map] at ht
  obtain ⟨u, hu, rfl⟩ := Option.map_eq_some_iff.mp ht
  exact (h.handed i u hu).refresh

variable [Dispatcher δ] [Validator ν]

theorem Handed.schedule (h : s.Handed) (a : Action) (report : Report) :
    (s.schedule a report).1.Handed := by
  refine ⟨(schedule_evolves (w := .any) s h.wellFormed a report fun _ _ => trivial).1.wellFormed
    h.wellFormed, ?_⟩
  rcases s.schedule_cases a report with ⟨window, he, -⟩ | ⟨reason, he, -⟩
  · rw [he]
    exact (Round.run_handed a 0
      ⟨window, s.log, s.dispatcher, s.validator, s.counts, s.handles, report⟩ s.tasks h.wellFormed
      h.handed).1
  · rw [he]
    exact h.handed

theorem Reaches.handed {w : Conduct} {s' : Scheduler σ δ ν} (run : Reaches w s s') (h : s.Handed) :
    s'.Handed := by
  induction run with
  | refl => exact h
  | tail _ step ih =>
    cases step with
    | call c _ =>
      exact perform_keeps (P := Handed) (fun _ report h => h.observe report)
        (fun _ a report h => h.schedule a report) ih c
    | settle _ _ => exact ih.finish _ _
    | outside d v counts => exact ⟨ih.wellFormed, ih.handed⟩

end

end Scheduler

end TableMigration
