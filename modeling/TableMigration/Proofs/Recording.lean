import TableMigration.Proofs.Exchanges

/-!
# Recording

Every way for a task to get done ends in settling it, and settling records it unless its name was
recorded before. A call that stops at a fault leaves the task at hand unfinished, with a unit that
was refused, so that nothing done goes unrecorded. That what is recorded was done, and once, holds
at any time; that all that is done is recorded holds after a tick.
-/

namespace TableMigration

theorem MemoryStore.lines_foldl_append (names : List String) (store : MemoryStore) :
    (names.foldl (fun store n => (NameStore.append store n).1) store).lines = store.lines ++ names := by
  induction names generalizing store with
  | nil => exact (List.append_nil _).symm
  | cons n names ih =>
    rw [List.foldl_cons, ih, List.append_cons]
    rfl

namespace FailoverLog

variable {σ : Type} [NameStore σ]

/-- `log'` is `log` after `names` were recorded, none of which was before. -/
structure Adds (log : FailoverLog σ) (names : List String) (log' : FailoverLog σ) : Prop where
  recorded : log'.recorded = log.recorded ++ names
  nodup : names.Nodup
  unrecorded : ∀ n ∈ names, n ∉ log.recorded
  store : log'.store = names.foldl (fun store n => (NameStore.append store n).1) log.store

namespace Adds

variable {log log' log'' : FailoverLog σ} {names names' : List String}

theorem refl (log : FailoverLog σ) : log.Adds [] log :=
  ⟨(List.append_nil _).symm, .nil, List.forall_mem_nil _, rfl⟩

theorem trans (h : log.Adds names log') (h' : log'.Adds names' log'') :
    log.Adds (names ++ names') log'' := by
  have unrecorded : ∀ n ∈ names', n ∉ log.recorded ∧ n ∉ names := fun n hn => by
    have := h'.unrecorded n hn
    rwa [h.recorded, List.mem_append, not_or] at this
  refine ⟨?_, ?_, ?_, ?_⟩
  · rw [h'.recorded, h.recorded, List.append_assoc]
  · refine List.nodup_append.mpr ⟨h.nodup, h'.nodup, fun n hn m hm he => ?_⟩
    exact (unrecorded m hm).2 (he ▸ hn)
  · exact List.forall_mem_append.mpr ⟨h.unrecorded, fun n hn => (unrecorded n hn).1⟩
  · rw [h'.store, h.store, List.foldl_append]

theorem mem_of_mem (h : log.Adds names log') {n : String} (hn : n ∈ log.recorded) :
    n ∈ log'.recorded := by
  rw [h.recorded]
  exact List.mem_append_left _ hn

end Adds

theorem record_adds (log : FailoverLog σ) (name : String) :
    ∃ names, log.Adds names (log.record name).1 ∧ (∀ n ∈ names, n = name) ∧
      name ∈ (log.record name).1.recorded := by
  unfold record
  by_cases h : log.recorded.contains name = true
  · rw [if_pos h]
    exact ⟨[], .refl log, List.forall_mem_nil _, by simpa using h⟩
  · rw [if_neg h]
    refine ⟨[name], ⟨rfl, List.nodup_singleton _, ?_, rfl⟩, ?_, ?_⟩
    · exact List.forall_mem_singleton.mpr (by simpa using h)
    · exact List.forall_mem_singleton.mpr rfl
    · simp

end FailoverLog

section
variable {σ : Type} [NameStore σ]

/-- From `log` to `log'` only names of tasks were recorded that are done in `ts`. -/
def Sound (log : FailoverLog σ) (ts : List Task) (log' : FailoverLog σ) : Prop :=
  ∃ names, log.Adds names log' ∧ ∀ n ∈ names, ∃ t ∈ ts, t.name = n ∧ t.Done

theorem Sound.refl (log : FailoverLog σ) (ts : List Task) : Sound log ts log :=
  ⟨[], .refl log, List.forall_mem_nil _⟩

theorem Sound.trans {log log' log'' : FailoverLog σ} {ts ts' : List Task} (h : Sound log ts log')
    (h' : Sound log' ts' log'') (stays : ∀ t ∈ ts, t.Done → ∃ t' ∈ ts', t'.name = t.name ∧ t'.Done) :
    Sound log ts' log'' := by
  obtain ⟨names, adds, done⟩ := h
  obtain ⟨names', adds', done'⟩ := h'
  refine ⟨names ++ names', adds.trans adds', List.forall_mem_append.mpr ⟨fun n hn => ?_, done'⟩⟩
  obtain ⟨t, ht, rfl, hd⟩ := done n hn
  exact stays t ht hd

/-- From `ts` to `ts'` names were recorded soundly, and if all that was done was recorded before it
still is. -/
structure Records (ts : List Task) (log : FailoverLog σ) (ts' : List Task) (log' : FailoverLog σ) :
    Prop where
  sound : Sound log ts' log'
  complete : (∀ t ∈ ts, t.Done → t.name ∈ log.recorded) →
    ∀ t ∈ ts', t.Done → t.name ∈ log'.recorded

end

namespace Records

variable {σ : Type} [NameStore σ] {ts ts' ts'' : List Task} {log log' log'' : FailoverLog σ}

theorem mem_of_mem (h : Records ts log ts' log') {n : String} (hn : n ∈ log.recorded) :
    n ∈ log'.recorded := by
  obtain ⟨names, adds, -⟩ := h.sound
  exact adds.mem_of_mem hn

theorem refl (ts : List Task) (log : FailoverLog σ) : Records ts log ts log :=
  ⟨.refl log ts, id⟩

theorem trans (h : Records ts log ts' log') (h' : Records ts' log' ts'' log'')
    (stays : ∀ t ∈ ts', t.Done → ∃ t' ∈ ts'', t'.name = t.name ∧ t'.Done) :
    Records ts log ts'' log'' :=
  ⟨h.sound.trans h'.sound stays, fun all => h'.complete (h.complete all)⟩

theorem append {us us' : List Task} (h : Records ts log ts' log') (h' : Records us log' us' log'') :
    Records (ts ++ us) log (ts' ++ us') log'' := by
  refine ⟨?_, fun all => ?_⟩
  · obtain ⟨names, adds, done⟩ := h.sound
    obtain ⟨names', adds', done'⟩ := h'.sound
    refine ⟨names ++ names', adds.trans adds', List.forall_mem_append.mpr ⟨fun n hn => ?_, fun n hn => ?_⟩⟩
    · obtain ⟨t, ht, found⟩ := done n hn
      exact ⟨t, List.mem_append_left _ ht, found⟩
    · obtain ⟨t, ht, found⟩ := done' n hn
      exact ⟨t, List.mem_append_right _ ht, found⟩
  · obtain ⟨hts, hus⟩ := List.forall_mem_append.mp all
    refine List.forall_mem_append.mpr ⟨fun t ht done => h'.mem_of_mem (h.complete hts t ht done), ?_⟩
    exact h'.complete fun t ht done => h.mem_of_mem (hus t ht done)

end Records

/-! ## Rounds -/

theorem settleTask_records {σ : Type} [NameStore σ] {t : Task} (wf : t.WellFormed) (us : List Task)
    (log : FailoverLog σ) (report : Report) :
    Records us log [(settleTask t log report).1] (settleTask t log report).2.1 := by
  have done := Task.progress_refresh_eq_succeeded_iff wf.nonempty
  obtain ⟨h, same⟩ | ⟨h, same⟩ := Round.settleTask_cases t log report
  · rw [same]
    refine ⟨.refl .., fun _ => List.forall_mem_singleton.mpr fun hd => ?_⟩
    exact absurd (done.mpr (Task.done_refresh.mp hd)) h
  · rw [same]
    obtain ⟨names, adds, only, recorded⟩ := log.record_adds t.refresh.name
    refine ⟨⟨names, adds, fun n hn => ⟨t.refresh, List.mem_singleton_self _, (only n hn).symm, ?_⟩⟩,
      fun _ => List.forall_mem_singleton.mpr fun _ => recorded⟩
    exact Task.done_refresh.mpr (done.mp h)

theorem Task.not_done_of_started {t t' : Task} {a : Action} {id : String}
    (h : t.start a id = .ok (some t')) : ¬t'.Done := by
  obtain ⟨s, hm, -, new, rfl⟩ := Task.start_eq_some h
  intro done
  have left := done _ (Task.mem_replace_self hm (Stage.setUnit_action s id .running))
  cases left.unit_eq (Stage.unitProgress?_setUnit new .running)

namespace Round

variable {σ δ ν : Type}

theorem conclude_records [NameStore σ] {t : Task} (wf : t.WellFormed) {r : Round σ δ ν}
    {log : FailoverLog σ} (same : r.log = log) (us : List Task) :
    Records us log [(r.conclude t).1] (r.conclude t).2.1.log :=
  same ▸ settleTask_records wf us r.log r.report

theorem records_of_not_done [NameStore σ] {t t' : Task} (log : FailoverLog σ) (h : t'.Done → t.Done)
    (name : t'.name = t.name) : Records [t] log [t'] log :=
  ⟨.refl .., fun all => List.forall_mem_singleton.mpr fun hd =>
    name ▸ List.forall_mem_singleton.mp all (h hd)⟩

theorem submit_not_done [Dispatcher δ] (owner : Nat) (a : Action) {t : Task} (wf : t.WellFormed)
    (present : a ∈ t.actions) (r : Round σ δ ν) (ids : List String) (f : Fault)
    (fault : (r.submit owner a t ids).2.2 = some f) : ¬(r.submit owner a t ids).1.Done := by
  fun_induction Round.submit owner a t r ids with
  | case1 t r => cases fault
  | case2 t r id ids f hs => exact absurd hs (Task.start_ne_error present id f)
  | case3 t r id ids hs ih => exact ih wf present fault
  | case4 t r id ids t' hs h d r' e hd => exact Task.not_done_of_started hs
  | case5 t r id ids t' hs h d r' admitted hd ih =>
    exact ih (wf.start hs) (Task.actions_eq_of_shape (Task.start_shape wf hs) ▸ present) fault
  | case6 t r id ids t' hs h d r' admitted o hd ih =>
    have shape := (Task.finish_shape (wf.start hs) a id o).trans (Task.start_shape wf hs)
    exact ih ((wf.start hs).finish a id o) (Task.actions_eq_of_shape shape ▸ present) fault

section
variable [NameStore σ] [Dispatcher δ] [Validator ν]

theorem admitTask_records {t : Task} (wf : t.WellFormed) (owner : Nat) (a : Action)
    (r : Round σ δ ν) :
    Records [t] r.log [(r.admitTask owner a t).1] (r.admitTask owner a t).2.1.log := by
  have wf' := wf.of_shape (Task.shape_refresh t)
  have refreshed : Records [t] r.log [t.refresh] r.log := records_of_not_done r.log Task.done_refresh.mp rfl
  have visit := admitTask_visit wf owner a r
  generalize r.admitTask owner a t = out, admitMoments owner a t r = ms at visit ⊢
  cases visit with
  | idle passed => exact refreshed
  | crash turn asked => exact refreshed
  | judge turn compare empty asked =>
    exact conclude_records (wf'.judge turn.found _) (by rfl) [t]
  | skip turn gated empty =>
    exact conclude_records (wf'.judge turn.found _) (by rfl) [t]
  | @halt t' r' f s turn submitted =>
    have frame := submit_frame owner a t.refresh r s.newIds
    have left := submit_not_done owner a wf' turn.present r s.newIds f
    have part := (submit_moves (w := .any) owner a wf' turn.cleared turn.present r s.newIds
      fun _ _ => trivial).1
    rw [submitted] at frame left part
    have same : r'.log = r.log := frame.log
    exact same ▸ records_of_not_done _ (fun done => absurd done (left rfl)) part.name_eq
  | @work t' r' s turn _ submitted =>
    have frame := submit_frame owner a t.refresh r s.newIds
    have whole := (submit_moves (w := .any) owner a wf' turn.cleared turn.present r s.newIds
      fun _ _ => trivial).1
    rw [submitted] at frame whole
    exact conclude_records (whole.wellFormed wf') frame.log [t]

theorem run_records (a : Action) (owner : Nat) (r : Round σ δ ν) (ts : List Task)
    (wf : ∀ t ∈ ts, t.WellFormed) :
    Records ts r.log (r.run a owner ts).1 (r.run a owner ts).2.1.log :=
  run_relates (R := fun _ r ts _ ts' r' => Records ts r.log ts' r'.log) (fun _ r ts => .refl ts r.log)
    (fun hwf _ rest => (admitTask_records hwf _ a _).append rest) owner r wf

end

end Round

/-! ## Runs -/

theorem Task.Moves.done {w : Conduct} {owner : Nat} {t t' : Task} (wf : t.WellFormed)
    (moves : t.Moves w owner t') (done : t.Done) : t'.Done :=
  moves.keeps wf (fun _ move done => by
    cases move with
    | refresh => exact Task.done_refresh.mpr done
    | change found ch => exact absurd (done _ found) ch.not_done) done

theorem Evolves.done {w : Conduct} {k : Nat} {ts ts' : List Task} (h : Evolves w k ts ts')
    (wf : ∀ t ∈ ts, t.WellFormed) : ∀ t ∈ ts, t.Done → ∃ t' ∈ ts', t'.name = t.name ∧ t'.Done := by
  intro t ht done
  obtain ⟨i, hi⟩ := List.mem_iff_getElem?.mp ht
  obtain ⟨t', hi', moves⟩ := h.moves i t hi
  exact ⟨t', List.mem_of_getElem? hi', moves.name_eq, moves.done (wf t ht) done⟩

namespace Scheduler

section
variable {σ δ ν : Type} [NameStore σ]

theorem observeTasks_records (log : FailoverLog σ) (report : Report) (ts : List Task)
    (wf : ∀ t ∈ ts, t.WellFormed) :
    Records [] log (observeTasks log report ts).1 (observeTasks log report ts).2.1 := by
  induction ts generalizing log report with
  | nil => exact .refl [] log
  | cons t ts ih =>
    obtain ⟨hwf, hwfs⟩ := List.forall_mem_cons.mp wf
    exact (settleTask_records hwf [] log report).append (ih _ _ hwfs)

theorem observe_records (s : Scheduler σ δ ν) (wf : ∀ t ∈ s.tasks, t.WellFormed) (report : Report) :
    Records [] s.log (s.observe report).1.tasks (s.observe report).1.log :=
  observeTasks_records s.log report s.tasks wf

end

section
variable {σ δ ν : Type} [NameStore σ] [Dispatcher δ] [Validator ν]

theorem schedule_records (s : Scheduler σ δ ν) (wf : ∀ t ∈ s.tasks, t.WellFormed) (a : Action)
    (report : Report) : Records s.tasks s.log (s.schedule a report).1.tasks (s.schedule a report).1.log := by
  rcases s.schedule_cases a report with ⟨window, he, -⟩ | ⟨reason, he, -⟩
  · rw [he]
    exact Round.run_records a 0
      ⟨window, s.log, s.dispatcher, s.validator, s.counts, s.handles, report⟩ s.tasks wf
  · rw [he]
    exact .refl ..

theorem tick_records (s : Scheduler σ δ ν) (wf : ∀ t ∈ s.tasks, t.WellFormed) :
    Records [] s.log s.tick.1.tasks s.tick.1.log := by
  have seen := observe_records s wf .empty
  have moves := observe_evolves (w := .any) s .empty
  rcases s.tick_cases with ⟨-, -, he⟩ | ⟨s', result, done, -, he⟩
  · rw [he]
    exact seen
  · -- what is done stays done, so that it need not be recorded again
    have later := scheduleAll_relates (R := fun s _ s' => ∀ us log, Records us log s.tasks s.log →
      Records us log s'.tasks s'.log) (fun _ _ _ => id)
      (fun first next us log before => next us log (first us log before))
      (fun s a report wf us log before => before.trans (schedule_records s wf a report)
        ((schedule_evolves (w := .any) s wf a report fun _ _ => trivial).1.done wf))
      s.plan.actions (moves.wellFormed wf) (s.observe .empty).2.1 _ _ seen
    rw [done] at later
    rw [he]
    exact later

theorem perform_sound (s : Scheduler σ δ ν) (wf : ∀ t ∈ s.tasks, t.WellFormed) (c : Call) :
    Sound s.log (s.perform c).tasks (s.perform c).log := by
  cases c with
  | tick => exact (tick_records s wf).sound
  | observe report => exact (observe_records s wf report).sound
  | schedule a report => exact (schedule_records s wf a report).sound

theorem Step.sound {w : Conduct} {s s' : Scheduler σ δ ν} (wf : ∀ t ∈ s.tasks, t.WellFormed)
    (step : Step w s s') : Sound s.log s'.tasks s'.log := by
  cases step with
  | call c _ => exact perform_sound s wf c
  | settle _ _ =>
    rw [finish_eq]
    exact .refl ..
  | outside d v counts => exact .refl ..

theorem Reaches.sound {w : Conduct} {s s' : Scheduler σ δ ν} (wf : ∀ t ∈ s.tasks, t.WellFormed)
    (run : Reaches w s s') : Sound s.log s'.tasks s'.log := by
  induction run with
  | refl => exact .refl ..
  | tail run step ih =>
    have wf' := (Reaches.evolves wf run).wellFormed wf
    exact ih.trans (step.sound wf') ((step.evolves wf').done wf')

end

/-- After any tick of any run the store holds its first lines and then, once each, the names of the
tasks that are done and were not recorded as finished at the start. -/
theorem recorded_iff_done {δ ν : Type} [Dispatcher δ] [Validator ν] {tasks : List Task}
    (fresh : ∀ t ∈ tasks, t.Fresh) {plan : Plan} {gate : Gate} (lines : List String) {d : δ} {v : ν}
    {s : Scheduler MemoryStore δ ν}
    (run : Reaches .any (Scheduler.new plan tasks gate (.openOn ⟨lines⟩) d v) s) :
    ∃ added, s.tick.1.log.store.lines = lines ++ added ∧ added.Nodup ∧
      ∀ name, name ∈ added ↔
        (FailoverLog.openOn (⟨lines⟩ : MemoryStore)).isFinished name = false ∧
        ∃ t ∈ s.tick.1.tasks, t.name = name ∧ t.Done := by
  have start := new_wellFormed fresh plan gate (.openOn (⟨lines⟩ : MemoryStore)) d v
  have wf := (run.evolves start).wellFormed start
  have ticked : Reaches .any (Scheduler.new plan tasks gate (.openOn ⟨lines⟩) d v) s.tick.1 :=
    run.tail (.call .tick fun _ _ => trivial)
  -- soundness is carried along the run, completeness is won back by the last tick alone
  obtain ⟨added, adds, done⟩ := ticked.sound start
  have opened : ∀ name, (FailoverLog.openOn (⟨lines⟩ : MemoryStore)).isFinished name = false ↔
      name ∉ (FailoverLog.openOn (⟨lines⟩ : MemoryStore)).recorded := fun name => by
    rw [← Bool.not_eq_true, FailoverLog.isFinished, List.contains_iff_mem]
    rfl
  refine ⟨added, ?_, adds.nodup, fun name => ⟨fun hn => ?_, ?_⟩⟩
  · rw [adds.store, MemoryStore.lines_foldl_append]
    rfl
  · exact ⟨(opened name).mpr (adds.unrecorded name hn), done name hn⟩
  · rintro ⟨unfinished, t, ht, rfl, hd⟩
    have recorded := (tick_records s wf).complete (List.forall_mem_nil _) t ht hd
    rw [adds.recorded, List.mem_append] at recorded
    exact recorded.resolve_left ((opened t.name).mp unfinished)

theorem oneTable_recorded : (OneTable.start .succeed).tick.1.tick.1.log.store.lines = ["db.t"] ∧
    ∃ t ∈ (OneTable.start .succeed).tick.1.tick.1.tasks, t.name = "db.t" ∧ t.Done := by
  have run : Reaches .any (OneTable.start .succeed) (OneTable.start .succeed).tick.1 :=
    .single (.call .tick fun _ _ => trivial)
  obtain ⟨added, lines, -, iff⟩ := recorded_iff_done OneTable.tasks_fresh [] run
  have stored : (OneTable.start .succeed).tick.1.tick.1.log.store.lines = ["db.t"] := rfl
  rw [List.nil_append, stored] at lines
  exact ⟨stored, ((iff "db.t").mp (lines ▸ List.mem_singleton_self _)).2⟩

end Scheduler

end TableMigration
