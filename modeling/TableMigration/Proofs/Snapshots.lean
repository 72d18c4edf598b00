import TableMigration.Proofs.Advances
import TableMigration.Proofs.Faultless

/-!
# Reports show what is

A snapshot reads what is stored. Refreshing stops at the first stage that has failed and leaves what
is stored for the later ones as it was; that is no loss, because none of these has ever begun.
-/

namespace TableMigration

namespace Task

def liveSnapshot (t : Task) : Snapshot :=
  ⟨t.name, t.liveProgress, t.stages.map fun s => (s.action, s.liveProgress)⟩

section
variable {t : Task} (ordered : t.InOrder) (lags : t.Lags) (refreshed : t.refresh = t)
include ordered lags refreshed

theorem stored_eq_live : ∀ s ∈ t.stages, s.progress = s.liveProgress := by
  have same : refreshStages t.stages = t.stages := congrArg Task.stages refreshed
  have up_to_date : ∀ s : Stage, s.refresh.progress = s.refresh.liveProgress := by
    intro s
    rw [Stage.refresh_progress, Stage.refresh_liveProgress]
  rcases refreshStages_cases t.stages with ⟨-, he⟩ | ⟨pre, f, post, split, -, failed, he⟩
  · intro s hs
    rw [← same, he] at hs
    obtain ⟨b, -, rfl⟩ := List.mem_map.mp hs
    exact up_to_date b
  · -- a stage behind the failed one has not begun, so what is stored for it has never moved
    have behind : ∀ s ∈ post, s.progress = s.liveProgress := by
      intro s hs
      unfold InOrder at ordered
      rw [split, List.pairwise_append, List.pairwise_cons] at ordered
      have idle : ¬s.Begun := by
        intro begun
        have done := ordered.2.1.1 s hs begun
        rw [Stage.liveProgress_eq_succeeded_iff.mpr done] at failed
        cases failed
      have live := Stage.liveProgress_eq_new_iff.mpr idle
      have below : s.Lags := lags.stages s (by rw [split]; simp [hs])
      unfold Stage.Lags at below
      rw [live] at below ⊢
      exact below.eq_new
    intro s hs
    rw [← same, he, List.mem_append, List.mem_cons] at hs
    rcases hs with hs | rfl | hs
    · obtain ⟨b, -, rfl⟩ := List.mem_map.mp hs
      exact up_to_date b
    · exact up_to_date f
    · exact behind s hs

theorem snapshot_eq_live : t.snapshot = t.liveSnapshot := by
  have stages : t.stages.map (fun s => (s.action, s.progress)) =
      t.stages.map fun s => (s.action, s.liveProgress) :=
    List.map_congr_left fun s hs => by rw [stored_eq_live ordered lags refreshed s hs]
  have progress : t.progress = t.liveProgress := by rw [← refresh_progress, refreshed]
  unfold snapshot liveSnapshot
  rw [stages, progress]

end

theorem progress_eq_succeeded_iff {t : Task} (wf : t.WellFormed) (refreshed : t.refresh = t) :
    t.progress = .succeeded ↔ ∀ s ∈ t.stages, s.liveProgress = .succeeded := by
  have done := progress_refresh_eq_succeeded_iff wf.nonempty
  rw [refreshed] at done
  exact done.trans (forall₂_congr fun _ _ => Stage.liveProgress_eq_succeeded_iff.symm)

theorem progress_eq_failed_iff {t : Task} (refreshed : t.refresh = t) :
    t.progress = .failed ↔ ∃ s ∈ t.stages, s.liveProgress = .failed := by
  have failed := progress_refresh_eq_failed_iff (t := t)
  rwa [refreshed] at failed

end Task

namespace Scheduler

variable {σ δ ν : Type} [NameStore σ] [Dispatcher δ] [Validator ν]

theorem tick_snapshot {s s' : Scheduler σ δ ν} {report : Report} (tick : s.tick = (s', .ok report)) :
    report.snapshot = s'.snapshot := by
  rcases s.tick_cases with ⟨-, -, he⟩ | ⟨s₁, result, -, -, he⟩
  · cases he.symm.trans tick
    rfl
  · obtain ⟨rfl, made⟩ := Prod.mk.inj (he.symm.trans tick)
    obtain ⟨r, -, rfl⟩ := map_eq_ok made
    rfl

/-- A tick that gives a report, in any run, leaves every task in order with what is stored equal to
what its units and verdicts say; the report shows just this, and the summary counts by it. -/
theorem report_shows_live {tasks : List Task} (fresh : ∀ t ∈ tasks, t.Fresh) {plan : Plan} {gate : Gate}
    {log : FailoverLog σ} {d : δ} {v : ν} {s s' : Scheduler σ δ ν}
    (run : Reaches .any (Scheduler.new plan tasks gate log d v) s) {report : Report}
    (tick : s.tick = (s', .ok report)) :
    report.snapshot = s'.tasks.map Task.liveSnapshot ∧
    s'.tasks.map (fun t => (t.name, t.shape)) = tasks.map (fun t => (t.name, t.shape)) ∧
    s'.summary.total = tasks.length ∧
    s'.summary.succeeded = s'.tasks.countP (fun t => t.stages.all (·.liveProgress == .succeeded)) ∧
    s'.summary.failed = s'.tasks.countP (fun t => t.stages.any (·.liveProgress == .failed)) := by
  have start := new_wellFormed fresh plan gate log d v
  have wf := (run.evolves start).wellFormed start
  have ticked : Reaches .any (Scheduler.new plan tasks gate log d v) s.tick.1 :=
    run.tail (.call .tick fun _ _ => trivial)
  have evolves := ticked.evolves start
  have completes := (tick_completes_iff s wf).mp ⟨report, congrArg Prod.snd tick⟩
  have refreshed := tick_refreshed s wf completes
  have shown := tick_snapshot tick
  obtain rfl : s.tick.1 = s' := congrArg Prod.fst tick
  have wf' := evolves.wellFormed start
  have ordered := evolves.inOrder start (new_inOrder fresh plan gate log d v)
  have lags := evolves.lags start (new_lags fresh plan gate log d v)
  refine ⟨?_, ?_, ?_, ?_, ?_⟩
  · rw [shown]
    exact List.map_congr_left fun t ht =>
      Task.snapshot_eq_live (ordered t ht) (lags t ht) (refreshed t ht)
  · rw [evolves.map_eq_of_moves fun ht moves => Prod.ext moves.name_eq (moves.shape_eq (start _ ht))]
    exact new_map_eq_of_resumed (fun t => Prod.ext rfl t.shape_assumeSucceeded) ..
  · exact evolves.length_eq.trans (List.length_map _)
  · refine List.countP_congr fun t ht => ?_
    rw [beq_iff_eq, List.all_eq_true, Task.progress_eq_succeeded_iff (wf' t ht) (refreshed t ht)]
    exact forall₂_congr fun _ _ => beq_iff_eq.symm
  · refine List.countP_congr fun t ht => ?_
    rw [beq_iff_eq, List.any_eq_true, Task.progress_eq_failed_iff (refreshed t ht)]
    exact exists_congr fun _ => and_congr_right fun _ => beq_iff_eq.symm

theorem oneTable_shown :
    ((OneTable.start .hold).tick.1.finish (OneTable.unit "p=1") .failed).1.tick.1.tasks.map
      Task.liveSnapshot = [⟨"db.t", .failed, [(.createTable, .failed), (.compareResults, .new)]⟩] := by
  have run : Reaches .any (OneTable.start .hold)
      ((OneTable.start .hold).tick.1.finish (OneTable.unit "p=1") .failed).1 :=
    (Relation.ReflTransGen.single (.call .tick fun _ _ => trivial)).tail
      (.settle (h := OneTable.unit "p=1") (by decide) (o := .failed) trivial)
  exact (report_shows_live OneTable.tasks_fresh run rfl).1.symm

end Scheduler

end TableMigration
