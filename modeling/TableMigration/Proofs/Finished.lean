import TableMigration.Proofs.FinalResult
import TableMigration.Proofs.Liveness
import TableMigration.Proofs.Reports
import TableMigration.Proofs.Snapshots

/-!
# Finished for good

Whether all is finished is read off the refreshed tasks, while units of failed tasks may still run.
What becomes of these is not seen any more: they belong to the stage that has failed, which stays
failed and stored as such. So what is shown never changes again, nothing is left to record, and
every later tick finds the same.
-/

namespace TableMigration

theorem Stage.Change.progress_eq {w : Conduct} {owner : Nat} {cleared : Prop} {s s' : Stage}
    (ch : s.Change w owner cleared s') (failed : s.liveProgress = .failed) :
    s'.progress = s.progress := by
  cases ch with
  | start _ _ => rfl
  | settle _ _ => rfl
  | judge _ empty new _ =>
    rw [liveProgress_of_empty empty, new] at failed
    cases failed

theorem Exchange.eq_of_nil {δ ν : Type} [Dispatcher δ] [Validator ν] {counts : RowCounts} {k : Nat}
    {x y : Outside δ ν} (h : Exchange counts k x [] y) : y = x := by
  cases h
  rfl

namespace Task

theorem liveSnapshot_refresh (t : Task) : t.refresh.liveSnapshot = t.liveSnapshot := by
  have stages := map_refreshStages (fun s => (s.action, s.liveProgress))
    (fun s => Prod.ext rfl s.refresh_liveProgress) t.stages
  unfold liveSnapshot
  rw [liveProgress_refresh]
  exact congrArg (Snapshot.mk t.name t.liveProgress) stages

/-- The task has come to its end and shows `shown`, in what is stored as in what its units say. -/
structure Rests (shown : Snapshot) (t : Task) : Prop where
  ordered : t.InOrder
  lags : t.Lags
  ended : t.Ended
  stored : t.snapshot = shown
  live : t.liveSnapshot = shown

section
variable {w : Conduct} {owner : Nat} {t t' : Task} (wf : t.WellFormed)
include wf

theorem Ended.change_failed (ended : t.Ended) (ordered : t.InOrder) {s s' : Stage}
    (found : s ∈ t.stages) (ch : s.Change w owner (t.Cleared s.action) s') :
    s.liveProgress = .failed := by
  have ahead := (inOrder_iff wf).mp ordered
  have cleared := ch.cleared_of_begun (ahead s found)
  have failed : t.Failed := ((ended_iff wf).mp ended).resolve_left fun done => ch.not_done (done s found)
  obtain ⟨f, hf, live⟩ := failed
  rcases Nat.lt_trichotomy f.action.rank s.action.rank with lt | eq | gt
  · have done := Stage.liveProgress_eq_succeeded_iff.mpr (cleared f hf lt)
    rw [live] at done
    cases done
  · rwa [wf.eq_of_action found hf (Action.rank_injective eq.symm)]
  · exact absurd (ahead f hf (Stage.begun_of_failed live) s found gt) ch.not_done

theorem Move.rests {shown : Snapshot} (move : Move w owner t t') (h : t.Rests shown) :
    t'.Rests shown := by
  have ordered := move.inOrder wf h.ordered
  have lags := (move.advances wf h.lags).2
  have ended := Moves.ended wf (.single move) h.ended
  cases move with
  | refresh =>
    have live := (liveSnapshot_refresh t).trans h.live
    exact ⟨ordered, lags, ended, (snapshot_eq_live ordered lags t.refresh_refresh).trans live, live⟩
  | @change s s' found ch =>
    have failed := h.ended.change_failed wf h.ordered found ch
    have stored : s'.progress = s.progress := ch.progress_eq failed
    have live : s'.liveProgress = s.liveProgress :=
      (ch.failed (wf.stages s found).nodup failed).trans failed.symm
    have same := map_replace wf found ch.action_eq live
    refine ⟨ordered, lags, ended, ?_, ?_⟩
    · rw [← h.stored]
      exact congrArg (Snapshot.mk t.name t.progress)
        (map_replace wf found ch.action_eq (Prod.ext ch.action_eq stored))
    · rw [← h.live]
      unfold liveSnapshot liveProgress
      rw [same, map_replace wf found ch.action_eq (Prod.ext ch.action_eq live)]
      rfl

end

theorem Moves.snapshot_eq {w : Conduct} {owner : Nat} {t t' : Task} (wf : t.WellFormed)
    (moves : Moves w owner t t') (rests : t.Rests t.snapshot) : t'.snapshot = t.snapshot :=
  (moves.keeps (P := Rests t.snapshot) wf (fun wf move => move.rests wf) rests).stored

theorem Ended.failed_of_open {t : Task} (wf : t.WellFormed) (ended : t.Ended) {s : Stage}
    (found : s ∈ t.stages) {u : WorkUnit} (hu : u ∈ s.units) (going : u.progress.isTerminal = false) :
    t.refresh.progress = .failed := by
  refine progress_refresh_eq_failed_iff.mpr (((ended_iff wf).mp ended).resolve_left fun done => ?_)
  rw [(done s found).1 u hu] at going
  cases going

end Task

namespace Scheduler

variable {σ δ ν : Type} [NameStore σ] [Dispatcher δ] [Validator ν]

structure Rested (s : Scheduler σ δ ν) : Prop where
  wellFormed : ∀ t ∈ s.tasks, t.WellFormed
  refreshed : ∀ t ∈ s.tasks, t.refresh = t
  rests : ∀ t ∈ s.tasks, t.Rests t.snapshot
  recorded : ∀ t ∈ s.tasks, t.Done → t.name ∈ s.log.recorded

theorem finishes_iff {s : Scheduler σ δ ν} (wf : ∀ t ∈ s.tasks, t.WellFormed) :
    s.Finishes ↔ ∀ t ∈ s.tasks, t.Ended := by
  refine ⟨?_, finishes_of_ended⟩
  rintro ⟨s', report, tick, finished⟩
  obtain ⟨refreshed, terminal⟩ := tick_of_allFinished wf tick finished
  rw [refreshed, List.forall_mem_map] at terminal
  exact terminal

theorem finishing_moments {s : Scheduler σ δ ν} (wf : ∀ t ∈ s.tasks, t.WellFormed)
    (ordered : ∀ t ∈ s.tasks, t.InOrder) (ended : ∀ t ∈ s.tasks, t.Ended) (c : Call) :
    s.moments c = [] := by
  refine List.eq_nil_iff_forall_not_mem.mpr fun m hm => ?_
  obtain ⟨t, at_t, going, -⟩ := subject_not_ended s wf ordered c m hm
  exact going (ended t (List.mem_of_getElem? at_t))

theorem rested_of_finished {s s' : Scheduler σ δ ν} (wf : ∀ t ∈ s.tasks, t.WellFormed)
    (ordered : ∀ t ∈ s.tasks, t.InOrder) (lags : ∀ t ∈ s.tasks, t.Lags) {report : Report}
    (tick : s.tick = (s', .ok report)) (finished : report.allFinished = true) : s'.Rested := by
  have evolves := (perform_evolves (w := .any) s wf .tick fun _ _ => trivial).1
  have records := tick_records s wf
  obtain ⟨refreshed, terminal⟩ := tick_of_allFinished wf tick finished
  obtain rfl : s.tick.1 = s' := congrArg Prod.fst tick
  have wf' := evolves.wellFormed wf
  have ordered' := evolves.inOrder wf ordered
  have lags' := evolves.lags wf lags
  have current : ∀ t ∈ s.tick.1.tasks, t.refresh = t := by
    rw [refreshed]
    exact List.forall_mem_map.mpr fun t _ => t.refresh_refresh
  refine ⟨wf', current, fun t ht => ?_, records.complete (List.forall_mem_nil _)⟩
  have ended : t.Ended := by
    unfold Task.Ended
    rw [current t ht]
    exact terminal t ht
  exact ⟨ordered' t ht, lags' t ht, ended, rfl,
    (Task.snapshot_eq_live (ordered' t ht) (lags' t ht) (current t ht)).symm⟩

namespace Rested

variable {s s' : Scheduler σ δ ν} (h : s.Rested) (later : Reaches .any s s')
include h later

theorem snapshot_eq : s'.snapshot = s.snapshot :=
  (later.evolves h.wellFormed).map_eq_of_moves fun ht moves =>
    moves.snapshot_eq (h.wellFormed _ ht) (h.rests _ ht)

theorem ended : ∀ t ∈ s'.tasks, t.Ended := by
  intro t' ht'
  obtain ⟨i, at_i⟩ := List.mem_iff_getElem?.mp ht'
  obtain ⟨t, at_t, moves⟩ := (later.evolves h.wellFormed).origin at_i
  have ht := List.mem_of_getElem? at_t
  exact moves.ended (h.wellFormed t ht) (h.rests t ht).ended

theorem adds_nil : s.log.Adds [] s'.log := by
  obtain ⟨names, adds, done⟩ := later.sound h.wellFormed
  suffices names = [] by rwa [this] at adds
  refine List.eq_nil_iff_forall_not_mem.mpr fun n hn => adds.unrecorded n hn ?_
  obtain ⟨t', ht', rfl, hd⟩ := done n hn
  obtain ⟨i, at_i⟩ := List.mem_iff_getElem?.mp ht'
  obtain ⟨t, at_t, moves⟩ := (later.evolves h.wellFormed).origin at_i
  have ht := List.mem_of_getElem? at_t
  have wf := h.wellFormed t ht
  rw [moves.name_eq]
  refine h.recorded t ht (((Task.ended_iff wf).mp (h.rests t ht).ended).resolve_right fun failed => ?_)
  exact hd.not_failed (moves.failed wf failed)

theorem finishes_again : ∃ last report, s'.tick = (last, .ok report) ∧ report.allFinished = true ∧
    report.newlyRecorded = [] ∧ last.snapshot = s.snapshot ∧ last.log.store = s.log.store := by
  have wf' := (later.evolves h.wellFormed).wellFormed h.wellFormed
  have ticked : Reaches .any s s'.tick.1 := later.tail (.call .tick fun _ _ => trivial)
  obtain ⟨last, report, tick, finished⟩ := finishes_of_ended (h.ended later)
  obtain ⟨names, adds, new⟩ := (tick_accounts wf' tick).recorded
  obtain rfl : s'.tick.1 = last := congrArg Prod.fst tick
  refine ⟨_, report, tick, finished, ?_, h.snapshot_eq ticked, (h.adds_nil ticked).store⟩
  -- the log ends as it was at rest, so what the tick added to it is nothing
  have before := (h.adds_nil later).recorded
  have after := (h.adds_nil ticked).recorded
  rw [adds.recorded, before, List.append_nil, List.append_right_eq_self] at after
  rw [new, after]
  rfl

end Rested

/-- In any run the next tick reports that all is finished just if the progress of each task, derived
anew, is terminal. Such a tick makes no requests, and leaves units open in failed tasks alone.
Whatever comes after it changes nothing that the tasks show and adds nothing to the log, and every
later tick reports the same. -/
theorem finished_for_good {tasks : List Task} (fresh : ∀ t ∈ tasks, t.Fresh) {plan : Plan} {gate : Gate}
    {log : FailoverLog σ} {d : δ} {v : ν} {s : Scheduler σ δ ν}
    (run : Reaches .any (Scheduler.new plan tasks gate log d v) s) :
    ((∃ s' report, s.tick = (s', .ok report) ∧ report.allFinished = true) ↔
      ∀ t ∈ s.tasks, t.liveProgress = .succeeded ∨ t.liveProgress = .failed) ∧
    ∀ s' report, s.tick = (s', .ok report) → report.allFinished = true →
      (s.moments .tick = [] ∧ s'.outside = s.outside ∧ report.admitted = [] ∧ report.validations = []) ∧
      (∀ t ∈ s'.tasks, ∀ b ∈ t.stages, ∀ u ∈ b.units, u.progress = .new ∨ u.progress = .running →
        t.progress = .failed) ∧
      ∀ s'', Reaches .any s' s'' →
        s''.snapshot = s'.snapshot ∧ s''.log.store = s'.log.store ∧
        ∃ last report', s''.tick = (last, .ok report') ∧ report'.allFinished = true ∧
          report'.newlyRecorded = [] ∧ last.snapshot = s'.snapshot ∧ last.log.store = s'.log.store := by
  have start := new_wellFormed fresh plan gate log d v
  have evolves := run.evolves start
  have wf := evolves.wellFormed start
  have ordered := evolves.inOrder start (new_inOrder fresh plan gate log d v)
  have lags := evolves.lags start (new_lags fresh plan gate log d v)
  constructor
  · refine (finishes_iff wf).trans (forall₂_congr fun t _ => ?_)
    unfold Task.Ended Task.isTerminal
    rw [t.refresh_progress]
    exact Progress.isTerminal_iff
  · intro s' report tick finished
    have ended := (finishes_iff wf).mp ⟨s', report, tick, finished⟩
    have idle := finishing_moments wf ordered ended .tick
    have rested := rested_of_finished wf ordered lags tick finished
    have accounts := tick_accounts wf tick
    have asked := perform_exchange s wf .tick
    obtain rfl : s.tick.1 = s' := congrArg Prod.fst tick
    rw [idle] at accounts asked
    refine ⟨⟨idle, ?_, accounts.admitted, accounts.validations⟩, ?_, fun s'' later => ?_⟩
    · exact asked.eq_of_nil
    · intro t ht b hb u hu going
      have failed := (rested.rests t ht).ended.failed_of_open (rested.wellFormed t ht) hb hu
      rw [rested.refreshed t ht] at failed
      apply failed
      rcases going with new | running
      · rw [new]
        rfl
      · rw [running]
        rfl
    · exact ⟨rested.snapshot_eq later, (rested.adds_nil later).store, rested.finishes_again later⟩

/-- The one table, of which one unit has failed while the other runs. -/
def oneTableHalf : Scheduler MemoryStore PolicyDispatcher FixedValidator :=
  ((OneTable.start .hold).tick.1.finish (OneTable.unit "p=1") .failed).1

theorem oneTable_finished_for_good :
    (oneTableHalf.tick.1.tasks.map fun t => t.unitProgress? .createTable "p=2") = [some .running] ∧
    (oneTableHalf.tick.1.finish (OneTable.unit "p=2") .succeeded).2 = true ∧
    ((oneTableHalf.tick.1.finish (OneTable.unit "p=2") .succeeded).1.tick.1.snapshot =
      [⟨"db.t", .failed, [(.createTable, .failed), (.compareResults, .new)]⟩]) := by
  have ticked : Reaches .any (OneTable.start .hold) (OneTable.start .hold).tick.1 :=
    .single (.call .tick fun _ _ => trivial)
  have run : Reaches .any (OneTable.start .hold) oneTableHalf :=
    ticked.tail (.settle (h := OneTable.unit "p=1") (by decide) (o := .failed) trivial)
  have later : Reaches .any oneTableHalf.tick.1
      (oneTableHalf.tick.1.finish (OneTable.unit "p=2") .succeeded).1 :=
    .single (.settle (h := OneTable.unit "p=2") (by decide) (o := .succeeded) trivial)
  obtain ⟨-, final⟩ := finished_for_good OneTable.tasks_fresh run
  obtain ⟨-, -, rest⟩ := final _ _ rfl rfl
  obtain ⟨-, -, last, report, tick, -, -, shown, -⟩ := rest _ later
  refine ⟨by decide, by decide, ?_⟩
  rw [tick, shown]
  rfl

end Scheduler

end TableMigration
