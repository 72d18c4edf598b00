import TableMigration.Proofs.Exchanges

/-!
# Dependency order

Inside a task no stage begins before all the stages ahead of it are done. Readiness is decided from
stored progress, which lags behind the units; it is sound because only a refreshed task is asked,
and what is done stays done.
-/

namespace TableMigration

theorem Stage.Change.cleared_of_begun {w : Conduct} {owner : Nat} {cleared : Prop} {s s' : Stage}
    (h : s.Change w owner cleared s') (begun : s.Begun → cleared) : cleared := by
  cases h with
  | start ready _ => exact ready
  | judge ready _ _ _ => exact ready
  | settle running _ =>
    obtain ⟨u, hu, hp⟩ := Option.map_eq_some_iff.mp running
    exact begun (Or.inl ⟨u, List.mem_of_find?_eq_some hu, by rw [hp]; decide⟩)

namespace Task

/-- Every stage ahead of one that has begun is done. -/
def InOrder (t : Task) : Prop :=
  t.stages.Pairwise fun b s => s.Begun → b.Done

theorem inOrder_iff {t : Task} (wf : t.WellFormed) :
    t.InOrder ↔ ∀ s ∈ t.stages, s.Begun → t.Cleared s.action := by
  refine ⟨fun h s hs begun => ?_, fun h => ?_⟩
  · obtain ⟨pre, post, split⟩ := List.append_of_mem hs
    rw [InOrder, split, List.pairwise_append] at h
    exact (wf.cleared_iff split).mpr fun b hb => h.2.2 b hb s (List.mem_cons_self ..) begun
  · have asc := List.pairwise_map.mp wf.ascending
    exact asc.imp_of_mem fun {b s} hb hs hlt begun => h s hs begun b hb hlt

theorem Cleared.refresh {t : Task} {a : Action} (h : t.Cleared a) : t.refresh.Cleared a :=
  forall_mem_refreshStages (P := fun b => b.action.rank < a.rank → b.Done)
    (fun _ hb hlt => Stage.done_refresh.mpr (hb hlt)) h

theorem InOrder.replace {t : Task} (wf : t.WellFormed) (ordered : t.InOrder) {s s' : Stage}
    (hs : s ∈ t.stages) (ha : s'.action = s.action) (hi : s'.ids = s.ids) (cleared : t.Cleared s.action)
    (not_done : ¬s.Done) : (t.replace s').InOrder := by
  rw [inOrder_iff (wf.of_shape (shape_replace wf hs ha hi))]
  rw [inOrder_iff wf] at ordered
  intro b hb begun
  -- a later stage that has begun would have needed `s` to be done
  rcases mem_replace hb with rfl | ⟨hb', -⟩
  · exact Cleared.replace (ha ▸ cleared)
  · intro c hc hlt
    rcases mem_replace hc with rfl | ⟨hc', -⟩
    · exact absurd (ordered b hb' begun s hs (ha ▸ hlt)) not_done
    · exact ordered b hb' begun c hc' hlt

theorem Move.inOrder {w : Conduct} {owner : Nat} {t t' : Task} (wf : t.WellFormed)
    (move : Move w owner t t') (ordered : t.InOrder) : t'.InOrder := by
  have cleared := (inOrder_iff wf).mp ordered
  cases move with
  | refresh =>
    rw [inOrder_iff (wf.of_shape (shape_refresh t))]
    refine forall_mem_refreshStages (P := fun s => s.Begun → t.refresh.Cleared s.action)
      (fun s hs begun => hs (Stage.begun_refresh.mp begun)) fun s hs begun => ?_
    exact (cleared s hs begun).refresh
  | change found ch =>
    exact ordered.replace wf found ch.action_eq ch.ids_eq (ch.cleared_of_begun (cleared _ found))
      ch.not_done

theorem Fresh.inOrder {t : Task} (h : t.Fresh) : t.InOrder :=
  (inOrder_iff h.wellFormed).mpr fun _ hs begun => absurd begun (h.not_begun hs)

theorem Done.inOrder {t : Task} (wf : t.WellFormed) (h : t.Done) : t.InOrder :=
  (inOrder_iff wf).mpr fun _ _ _ b hb _ => h b hb

end Task

namespace Evolves

variable {w : Conduct} {k : Nat} {ts ts' : List Task}

theorem inOrder (h : Evolves w k ts ts') (wf : ∀ t ∈ ts, t.WellFormed)
    (ordered : ∀ t ∈ ts, t.InOrder) : ∀ t ∈ ts', t.InOrder :=
  h.keeps wf (fun wf move => move.inOrder wf) ordered

end Evolves

structure Moment.InOrder (m : Moment) : Prop where
  begun : ∀ t ∈ m.tasks, t.InOrder
  requested : ∃ t, m.tasks[m.request.owner]? = some t ∧
    (∀ h, m.request.handle? = some h → h.task = t.name) ∧
    ∃ pre s post, t.stages = pre ++ s :: post ∧ s.action = m.request.action ∧ ∀ b ∈ pre, b.Done

theorem Moment.Proper.inOrder {m : Moment} (proper : m.Proper) (wf : ∀ t ∈ m.tasks, t.WellFormed)
    (ordered : ∀ t ∈ m.tasks, t.InOrder) : m.InOrder := by
  obtain ⟨t, ht, proper⟩ := proper
  obtain ⟨s, hs, ha⟩ := List.mem_map.mp proper.present
  obtain ⟨pre, post, split⟩ := List.append_of_mem hs
  have ahead := ((wf t (List.mem_of_getElem? ht)).cleared_iff split).mp (ha ▸ proper.cleared)
  exact ⟨ordered, t, ht, proper.handle, pre, s, post, split, ha, ahead⟩

namespace Scheduler

variable {σ δ ν : Type}

theorem new_inOrder {tasks : List Task} (fresh : ∀ t ∈ tasks, t.Fresh) (plan : Plan) (gate : Gate)
    (log : FailoverLog σ) (d : δ) (v : ν) :
    ∀ t ∈ (Scheduler.new plan tasks gate log d v).tasks, t.InOrder :=
  new_keeps (fun t ht => (fresh t ht).inOrder)
    (fun t ht => (Task.done_assumeSucceeded t).inOrder
      ((fresh t ht).wellFormed.of_shape (Task.shape_assumeSucceeded t))) plan gate log d v

/-- In any run, at any time between calls and with every request a call makes of the dispatcher and
of the validator, what has begun or is asked for has all the stages ahead of it done. -/
theorem dependencies_done_first [NameStore σ] [Dispatcher δ] [Validator ν] {tasks : List Task}
    (fresh : ∀ t ∈ tasks, t.Fresh) {plan : Plan} {gate : Gate} {log : FailoverLog σ} {d : δ} {v : ν}
    {s : Scheduler σ δ ν}
    (run : Reaches .any (Scheduler.new plan tasks gate log d v) s) :
    (∀ t ∈ s.tasks, t.InOrder) ∧
    ∀ c, Exchange s.counts 0 s.outside (s.moments c) (s.perform c).outside ∧
      ∀ m ∈ s.moments c, m.InOrder := by
  have start := new_wellFormed fresh plan gate log d v
  have evolves := run.evolves start
  have wf := evolves.wellFormed start
  have ordered := evolves.inOrder start (new_inOrder fresh plan gate log d v)
  refine ⟨ordered, fun c => ⟨perform_exchange s wf c, fun m hm => ?_⟩⟩
  obtain ⟨moved, proper⟩ := (perform_evolves (w := .any) s wf c fun _ _ => trivial).2 m hm
  exact proper.inOrder (moved.wellFormed wf) (moved.inOrder wf ordered)

theorem oneTable_done_first : ((OneTable.start .succeed).moments .tick).length = 3 ∧
    ∀ m ∈ (OneTable.start .succeed).moments .tick, m.InOrder :=
  ⟨by decide, ((dependencies_done_first OneTable.tasks_fresh .refl).2 .tick).2⟩

end Scheduler

end TableMigration
