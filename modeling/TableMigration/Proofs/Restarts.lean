import TableMigration.Proofs.Endings
import TableMigration.Proofs.Stores

/-!
# Restarts

A session opens its log on the store that the sessions before it left behind, starts over with new
tasks, and may stop at any step. The names recorded so far are what the store holds at each
restart; tasks of these names succeed from the start and are never asked for again, so that no name
is ever recorded twice.
-/

namespace TableMigration

namespace Task

structure Succeeded (t : Task) : Prop where
  progress : t.progress = .succeeded
  stages : ∀ s ∈ t.stages, s.progress = .succeeded
  units : ∀ s ∈ t.stages, ∀ u ∈ s.units, u.progress = .succeeded

theorem Succeeded.done {t : Task} (h : t.Succeeded) : t.Done :=
  fun s hs => ⟨h.units s hs, fun _ => h.stages s hs⟩

theorem succeeded_assumeSucceeded (t : Task) : t.assumeSucceeded.Succeeded := by
  refine ⟨rfl, List.forall_mem_map.mpr fun s _ => rfl, List.forall_mem_map.mpr fun s _ => ?_⟩
  exact List.forall_mem_map.mpr fun u _ => rfl

theorem Move.succeeded {w : Conduct} {owner : Nat} {t t' : Task} (wf : t.WellFormed)
    (move : Move w owner t t') (h : t.Succeeded) : t'.Succeeded := by
  cases move with
  | refresh =>
    refine ⟨(progress_refresh_eq_succeeded_iff wf.nonempty).mpr h.done, fun s hs => ?_, ?_⟩
    · have kept := forall_mem_refreshStages (P := fun s => s.Done ∧ s.progress = .succeeded)
        (fun s hs => ⟨Stage.done_refresh.mpr hs.1, Stage.liveProgress_eq_succeeded_iff.mpr hs.1⟩)
        fun s hs => ⟨h.done s hs, h.stages s hs⟩
      exact (kept s hs).2
    · exact forall_mem_refreshStages (P := fun s => ∀ u ∈ s.units, u.progress = .succeeded)
        (fun _ hs => hs) h.units
  | change found ch => exact absurd (h.done _ found) ch.not_done

end Task

namespace Scheduler

theorem recorded_names {σ δ ν : Type} [NameStore σ] [Dispatcher δ] [Validator ν] {tasks : List Task}
    (fresh : ∀ t ∈ tasks, t.Fresh) {plan : Plan} {gate : Gate} {log : FailoverLog σ} {d : δ} {v : ν}
    {s : Scheduler σ δ ν} (run : Reaches .any (Scheduler.new plan tasks gate log d v) s) :
    ∃ added, log.Adds added s.log ∧ ∀ n ∈ added, ∃ t ∈ tasks, t.name = n := by
  have start := new_wellFormed fresh plan gate log d v
  obtain ⟨added, adds, done⟩ := run.sound start
  have names : s.tasks.map (·.name) = tasks.map (·.name) := by
    rw [(run.evolves start).names_eq, new_names]
  refine ⟨added, adds, fun n hn => ?_⟩
  obtain ⟨t, ht, rfl, -⟩ := done n hn
  exact List.mem_map.mp (names ▸ List.mem_map_of_mem ht)

/-- Sessions that have run one after another on one store, and the names they have recorded. -/
inductive Sessions (first : MemoryStore ⊕ FileStore Tree) :
    List String → MemoryStore ⊕ FileStore Tree → Prop
  | none : Sessions first [] first
  | next {names added : List String} {store : MemoryStore ⊕ FileStore Tree}
      (earlier : Sessions first names store) {δ ν : Type} [Dispatcher δ] [Validator ν]
      {tasks : List Task} (fresh : ∀ t ∈ tasks, t.Fresh) (proper : ∀ t ∈ tasks, ProperName t.name)
      {plan : Plan} {gate : Gate} {d : δ} {v : ν} {s : Scheduler (MemoryStore ⊕ FileStore Tree) δ ν}
      (run : Reaches .any (Scheduler.new plan tasks gate (.openOn store) d v) s)
      (gained : s.log.recorded = (FailoverLog.openOn store).recorded ++ added) :
      Sessions first (names ++ added) s.log.store

/-- The store holds these names, all different, and reads them back as they are. -/
structure Keeps (store : MemoryStore ⊕ FileStore Tree) (names : List String) : Prop where
  holds : Holds store names
  proper : ∀ n ∈ names, ProperName n
  nodup : names.Nodup

theorem Keeps.adds {store : MemoryStore ⊕ FileStore Tree} {names added : List String}
    (h : Keeps store names) {log : FailoverLog (MemoryStore ⊕ FileStore Tree)}
    (adds : (FailoverLog.openOn store).Adds added log) :
    Holds log.store (names ++ added) ∧ (names ++ added).Nodup := by
  constructor
  · rw [adds.store]
    exact h.holds.foldl_append added
  · refine List.nodup_append.mpr ⟨h.nodup, adds.nodup, fun n hn m hm he => ?_⟩
    exact adds.unrecorded m hm ((h.holds.mem_recorded_iff h.proper).mpr (he ▸ hn))

theorem Sessions.keeps {first store : MemoryStore ⊕ FileStore Tree} {names : List String}
    (empty : Holds first []) (h : Sessions first names store) : Keeps store names := by
  induction h with
  | none => exact ⟨empty, List.forall_mem_nil _, List.nodup_nil⟩
  | @next names added store earlier δ ν _ _ tasks fresh proper plan gate d v s run gained ih =>
    obtain ⟨added', adds, known⟩ := recorded_names fresh run
    obtain rfl : added = added' := List.append_cancel_left (gained.symm.trans adds.recorded)
    obtain ⟨holds, nodup⟩ := ih.adds adds
    refine ⟨holds, List.forall_mem_append.mpr ⟨ih.proper, fun n hn => ?_⟩, nodup⟩
    obtain ⟨t, ht, rfl⟩ := known n hn
    exact proper t ht

/-- However many sessions have run on a store that was empty, and wherever each has stopped, the
tasks they have recorded succeed from the start of the next one, which never asks for them or
records them again, and all its other tasks start with nothing done. -/
theorem recorded_once_over_sessions {first store : MemoryStore ⊕ FileStore Tree}
    {names : List String} (empty : Holds first []) (earlier : Sessions first names store)
    {δ ν : Type} [Dispatcher δ] [Validator ν] {tasks : List Task} (fresh : ∀ t ∈ tasks, t.Fresh)
    {plan : Plan} {gate : Gate} {d : δ} {v : ν} {s : Scheduler (MemoryStore ⊕ FileStore Tree) δ ν}
    (run : Reaches .any (Scheduler.new plan tasks gate (.openOn store) d v) s) :
    (s.tasks.map (fun t => (t.name, t.shape)) = tasks.map (fun t => (t.name, t.shape)) ∧
      ∀ t ∈ s.tasks, t.name ∈ names → t.Succeeded) ∧
    (∀ t ∈ (Scheduler.new plan tasks gate (.openOn store) d v).tasks, t.name ∉ names →
      t ∈ tasks ∧ ∀ b ∈ t.stages, ∀ u ∈ b.units, u.progress = .new) ∧
    (∃ added, s.log.recorded = (FailoverLog.openOn store).recorded ++ added ∧
      Holds s.log.store (names ++ added) ∧ (names ++ added).Nodup) ∧
    ∀ c, Exchange s.counts 0 s.outside (s.moments c) (s.perform c).outside ∧
      ∀ m ∈ s.moments c, ∃ t, s.tasks[m.request.owner]? = some t ∧ t.name ∉ names ∧
        ∀ h, m.request.handle? = some h → h.task = t.name := by
  have kept := earlier.keeps empty
  have finished : ∀ n, (FailoverLog.openOn store).isFinished n = true ↔ n ∈ names :=
    fun n => kept.holds.isFinished_iff kept.proper
  have start := new_wellFormed fresh plan gate (.openOn store) d v
  have evolves := run.evolves start
  have wf := evolves.wellFormed start
  have resumed : ∀ t ∈ s.tasks, t.name ∈ names → t.Succeeded := by
    refine evolves.keeps (P := fun t => t.name ∈ names → t.Succeeded) start
      (fun wf move h hn => move.succeeded wf (h (move.name_eq ▸ hn))) ?_
    refine List.forall_mem_map.mpr fun t _ => ?_
    by_cases h : (FailoverLog.openOn store).isFinished t.name = true
    · rw [if_pos h]
      exact fun _ => t.succeeded_assumeSucceeded
    · rw [if_neg h]
      exact fun hn => absurd ((finished _).mpr hn) h
  refine ⟨⟨?_, resumed⟩, List.forall_mem_map.mpr fun t ht => ?_, ?_,
    fun c => ⟨perform_exchange s wf c, fun m hm => ?_⟩⟩
  · rw [evolves.map_eq_of_moves fun ht moves => Prod.ext moves.name_eq (moves.shape_eq (start _ ht))]
    exact new_map_eq_of_resumed (fun t => Prod.ext rfl t.shape_assumeSucceeded) ..
  · by_cases h : (FailoverLog.openOn store).isFinished t.name = true
    · rw [if_pos h]
      exact fun hn => absurd ((finished _).mp h) hn
    · rw [if_neg h]
      exact fun _ => ⟨ht, fun b hb => ((fresh t ht).stage_new hb).2⟩
  · obtain ⟨added, adds, -⟩ := recorded_names fresh run
    exact ⟨added, adds.recorded, kept.adds adds⟩
  · have ordered := evolves.inOrder start (new_inOrder fresh plan gate (.openOn store) d v)
    obtain ⟨t, at_s, open_, handle⟩ := subject_not_ended s wf ordered c m hm
    refine ⟨t, at_s, fun hn => open_ ?_, handle⟩
    have ht := List.mem_of_getElem? at_s
    exact (Task.ended_iff (wf t ht)).mpr (Or.inl (resumed t ht hn).done)

end Scheduler

/-! ## Two sessions over one table -/

namespace OneTable

def noFile : MemoryStore ⊕ FileStore Tree := .inr ⟨.empty, ⟨"failover.out"⟩⟩

def session (c : Completion) (store : MemoryStore ⊕ FileStore Tree) :
    Scheduler (MemoryStore ⊕ FileStore Tree) PolicyDispatcher FixedValidator :=
  .new plan [task] (.uniform plan 1) (.openOn store) (.ofPolicy ⟨c, .empty, [], []⟩) ⟨[], [], []⟩

theorem proper : ∀ t ∈ [task], ProperName t.name :=
  List.forall_mem_singleton.mpr (.of_solid (by decide) (by decide))

theorem restarted :
    Scheduler.Sessions noFile ["db.t"] (session .succeed noFile).tick.1.log.store ∧
      (session .hold (session .succeed noFile).tick.1.log.store).moments .tick = [] := by
  have ticked : Scheduler.Reaches .any (session .succeed noFile) (session .succeed noFile).tick.1 :=
    .single (.call .tick fun _ _ => trivial)
  have earlier : Scheduler.Sessions noFile ([] ++ ["db.t"]) (session .succeed noFile).tick.1.log.store :=
    .next .none tasks_fresh proper ticked rfl
  refine ⟨earlier, List.eq_nil_iff_forall_not_mem.mpr fun m hm => ?_⟩
  have empty : Holds noFile [] := ⟨rfl, rfl⟩
  obtain ⟨⟨same, -⟩, -, -, asked⟩ :=
    Scheduler.recorded_once_over_sessions empty earlier tasks_fresh
      (s := session .hold (session .succeed noFile).tick.1.log.store) .refl
  obtain ⟨t, at_t, unrecorded, -⟩ := (asked .tick).2 m hm
  have known := List.mem_map_of_mem (f := fun t => (t.name, t.shape)) (List.mem_of_getElem? at_t)
  rw [same] at known
  obtain ⟨name, -⟩ := Prod.mk.inj (List.mem_singleton.mp known)
  exact unrecorded (List.mem_singleton.mpr name)

end OneTable

end TableMigration
