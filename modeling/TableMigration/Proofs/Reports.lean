import TableMigration.Proofs.Recording
import TableMigration.Proofs.Tracking

/-!
# What a report accounts for

A report is added to wherever something is done: a unit that is submitted and not refused is admitted
in it, a verdict is a validation, a name that is recorded for the first time is newly recorded. The
requests of a call are therefore read off its report, in order.
-/

namespace TableMigration

namespace Request

def admission? : Request → Option UnitKey
  | submit _ (.refused _) => none
  | submit h .running => some h.toUnitKey
  | submit h (.finished _) => some h.toUnitKey
  | validate .. => none

def judgement? (t : Task) : Request → Option (String × Bool)
  | submit .. => none
  | validate _ _ .passed => some (t.name, true)
  | validate _ _ .rejected => some (t.name, false)
  | validate _ _ (.crashed _) => none

end Request

/-- What a report and the log gain with these requests. -/
structure Accounts {σ : Type} [NameStore σ] (log : FailoverLog σ) (report : Report)
    (qs : List (Task × Request)) (log' : FailoverLog σ) (report' : Report) : Prop where
  admitted : report'.admitted = report.admitted ++ qs.filterMap (·.2.admission?)
  validations : report'.validations = report.validations ++ qs.filterMap fun q => q.2.judgement? q.1
  recorded : ∃ names, log.Adds names log' ∧ report'.newlyRecorded = report.newlyRecorded ++ names

namespace Accounts

variable {σ : Type} [NameStore σ] {log log' log'' : FailoverLog σ} {report report' report'' : Report}
  {qs qs' : List (Task × Request)}

theorem refl (log : FailoverLog σ) (report : Report) : Accounts log report [] log report where
  admitted := (List.append_nil _).symm
  validations := (List.append_nil _).symm
  recorded := ⟨[], .refl log, (List.append_nil _).symm⟩

theorem append (h : Accounts log report qs log' report') (h' : Accounts log' report' qs' log'' report'') :
    Accounts log report (qs ++ qs') log'' report'' := by
  obtain ⟨names, adds, new⟩ := h.recorded
  obtain ⟨names', adds', new'⟩ := h'.recorded
  refine ⟨?_, ?_, names ++ names', adds.trans adds', ?_⟩
  · rw [h'.admitted, h.admitted, List.filterMap_append, List.append_assoc]
  · rw [h'.validations, h.validations, List.filterMap_append, List.append_assoc]
  · rw [new', new, List.append_assoc]

theorem cons {q : Task × Request} (head : Accounts log report [q] log' report')
    (rest : Accounts log' report' qs log'' report'') : Accounts log report (q :: qs) log'' report'' :=
  head.append rest

theorem settleTask (t : Task) (log : FailoverLog σ) (report : Report) :
    Accounts log report [] (settleTask t log report).2.1 (settleTask t log report).2.2 := by
  obtain ⟨-, same⟩ | ⟨-, same⟩ := Round.settleTask_cases t log report
  · rw [same]
    exact .refl log report
  · rw [same]
    unfold FailoverLog.record
    by_cases known : log.recorded.contains t.refresh.name = true
    · rw [if_pos known]
      simpa using Accounts.refl log report
    · rw [if_neg known]
      have unrecorded : t.refresh.name ∉ log.recorded := fun h => known (List.contains_iff_mem.mpr h)
      refine ⟨(List.append_nil _).symm, (List.append_nil _).symm, [t.refresh.name], ?_, rfl⟩
      exact ⟨rfl, List.nodup_singleton _, List.forall_mem_singleton.mpr unrecorded, rfl⟩

theorem same {log : FailoverLog σ} {report report' : Report} (admitted : report'.admitted = report.admitted)
    (validations : report'.validations = report.validations)
    (newlyRecorded : report'.newlyRecorded = report.newlyRecorded) :
    Accounts log report [] log report' :=
  ⟨admitted ▸ (List.append_nil _).symm, validations ▸ (List.append_nil _).symm, [], .refl log,
    newlyRecorded ▸ (List.append_nil _).symm⟩

theorem refused (t : Task) (h : Handle) (e : DispatchError) (log : FailoverLog σ) (report : Report) :
    Accounts log report [(t, .submit h (.refused e))] log report :=
  ⟨(List.append_nil _).symm, (List.append_nil _).symm, [], .refl log, (List.append_nil _).symm⟩

theorem admission (t : Task) {h : Handle} {receipt : Receipt}
    (taken : (Request.submit h receipt).admission? = some h.toUnitKey) (log : FailoverLog σ) (report : Report) :
    Accounts log report [(t, .submit h receipt)] log
      { report with admitted := report.admitted ++ [h.toUnitKey] } := by
  refine ⟨?_, (List.append_nil _).symm, [], .refl log, (List.append_nil _).symm⟩
  exact congrArg (report.admitted ++ ·) (List.filterMap_cons_some (l := []) taken).symm

theorem crash (t : Task) (owner : Nat) (a : Action) (payload : Payload) (log : FailoverLog σ)
    (report : Report) : Accounts log report [(t, .validate owner a (.crashed payload))] log report :=
  ⟨(List.append_nil _).symm, (List.append_nil _).symm, [], .refl log, (List.append_nil _).symm⟩

theorem judgement (t : Task) (owner : Nat) (a : Action) (passed : Bool) (log : FailoverLog σ)
    (report : Report) : Accounts log report [(t, .validate owner a (.ofBool passed))] log
      { report with validations := report.validations ++ [(t.name, passed)] } := by
  refine ⟨(List.append_nil _).symm, ?_, [], .refl log, (List.append_nil _).symm⟩
  cases passed <;> rfl

end Accounts

namespace Round

variable {σ δ ν : Type} [NameStore σ]

theorem conclude_accounts {r : Round σ δ ν} {log : FailoverLog σ} {report : Report} (t : Task)
    (same_log : r.log = log) (same_report : r.report = report) :
    Accounts log report [] (r.conclude t).2.1.log (r.conclude t).2.1.report := by
  subst same_log
  subst same_report
  exact .settleTask t r.log r.report

theorem submit_accounts [Dispatcher δ] (owner : Nat) (a : Action) (t : Task) (r : Round σ δ ν)
    (ids : List String) : Accounts r.log r.report (submitMoments owner a t r.dispatcher ids)
      (r.submit owner a t ids).2.1.log (r.submit owner a t ids).2.1.report := by
  fun_induction Round.submit owner a t r ids with
  | case1 t r => exact .refl ..
  | case2 t r id ids f hs =>
    simp only [submitMoments, hs]
    exact .refl ..
  | case3 t r id ids hs ih =>
    simp only [submitMoments, hs]
    exact ih
  | case4 t r id ids t' hs h d r' e hd =>
    rw [submitMoments_of_start hs hd]
    exact .refused ..
  | case5 t r id ids t' hs h d r' admitted hd ih =>
    rw [submitMoments_of_start hs hd]
    exact .cons (.admission t' rfl r.log r.report) ih
  | case6 t r id ids t' hs h d r' admitted o hd ih =>
    rw [submitMoments_of_start hs hd]
    exact .cons (.admission t' rfl r.log r.report) ih

variable [Dispatcher δ] [Validator ν]

theorem admitTask_accounts {t : Task} (wf : t.WellFormed) (owner : Nat) (a : Action) (r : Round σ δ ν) :
    Accounts r.log r.report (admitMoments owner a t r) (r.admitTask owner a t).2.1.log
      (r.admitTask owner a t).2.1.report := by
  have visit := admitTask_visit wf owner a r
  generalize r.admitTask owner a t = out, admitMoments owner a t r = ms at visit ⊢
  cases visit with
  | idle passed => exact .refl ..
  | crash turn asked => exact .crash ..
  | judge turn compare empty asked =>
    exact .cons (.judgement _ owner a _ r.log r.report) (conclude_accounts _ rfl rfl)
  | skip turn gated empty =>
    have skipped : Accounts r.log r.report [] r.log
        { r.report with skippedEmpty := r.report.skippedEmpty ++ [(t.refresh.name, a)] } := .same rfl rfl rfl
    exact skipped.append (conclude_accounts _ rfl rfl)
  | @halt t' r' f s turn submitted =>
    have done := submit_accounts owner a t.refresh r s.newIds
    rwa [submitted] at done
  | @work t' r' s turn _ submitted =>
    have done := submit_accounts owner a t.refresh r s.newIds
    rw [submitted] at done
    rw [← List.append_nil (submitMoments ..)]
    exact done.append (conclude_accounts t' rfl rfl)

theorem run_accounts (a : Action) (owner : Nat) (r : Round σ δ ν) (ts : List Task)
    (wf : ∀ t ∈ ts, t.WellFormed) : Accounts r.log r.report (asked owner (r.moments a owner ts))
      (r.run a owner ts).2.1.log (r.run a owner ts).2.1.report := by
  refine run_relates (R := fun owner r _ ms _ r' => Accounts r.log r.report (asked owner ms) r'.log r'.report)
    (fun _ _ _ => .refl ..) ?_ owner r wf
  intro owner r t ts ms ts' r' hwf beyond rest
  rw [asked_cons a owner r hwf beyond]
  exact (admitTask_accounts hwf owner a r).append rest

end Round

namespace Scheduler

variable {σ δ ν : Type} [NameStore σ]

theorem observeTasks_accounts (log : FailoverLog σ) (report : Report) (ts : List Task) :
    Accounts log report [] (observeTasks log report ts).2.1 (observeTasks log report ts).2.2 := by
  induction ts generalizing log report with
  | nil => exact .refl ..
  | cons t ts ih => exact (Accounts.settleTask t log report).append (ih _ _)

theorem observe_accounts (s : Scheduler σ δ ν) (report : Report) :
    Accounts s.log report [] (s.observe report).1.log (s.observe report).2.1 :=
  observeTasks_accounts s.log report s.tasks

variable [Dispatcher δ] [Validator ν]

theorem schedule_accounts (s : Scheduler σ δ ν) (wf : ∀ t ∈ s.tasks, t.WellFormed) (a : Action)
    (report : Report) : Accounts s.log report (asked 0 (s.scheduleMoments a report))
      (s.schedule a report).1.log (s.schedule a report).2.1 := by
  rcases s.schedule_cases a report with ⟨window, he, hm⟩ | ⟨reason, he, hm⟩
  · rw [he, hm]
    exact Round.run_accounts a 0
      ⟨window, s.log, s.dispatcher, s.validator, s.counts, s.handles, report⟩ s.tasks wf
  · rw [he, hm]
    exact .same rfl rfl rfl

theorem scheduleAll_accounts (actions : List Action) {s : Scheduler σ δ ν}
    (wf : ∀ t ∈ s.tasks, t.WellFormed) {report result : Report}
    (h : (s.scheduleAll report actions).2 = .ok result) :
    Accounts s.log report (asked 0 (s.scheduleAllMoments report actions))
      (s.scheduleAll report actions).1.log result := by
  refine scheduleAll_induction (R := fun s report _ ms out => ∀ result, out.2 = .ok result →
    Accounts s.log report (asked 0 ms) out.1.log result) ?_ ?_ ?_ actions wf report result h
  · exact fun s report result same => Except.ok.inj same ▸ .refl ..
  · intro s a _ report ms out wf _ rest result done
    rw [asked_append]
    exact (schedule_accounts s wf a report).append (rest result done)
  · exact fun _ _ _ => nofun

theorem tick_accounts {s s' : Scheduler σ δ ν} (wf : ∀ t ∈ s.tasks, t.WellFormed) {report : Report}
    (tick : s.tick = (s', .ok report)) :
    Accounts s.log .empty (asked 0 (s.moments .tick)) s'.log report := by
  have seen := observe_accounts s .empty
  have moves := observe_evolves (w := .any) s .empty
  rcases s.tick_cases with ⟨-, hm, he⟩ | ⟨s₁, result, done, hm, he⟩
  · cases he.symm.trans tick
    rw [hm]
    exact seen.append (.same rfl rfl rfl)
  · obtain ⟨rfl, made⟩ := Prod.mk.inj (he.symm.trans tick)
    obtain ⟨r, rfl, rfl⟩ := map_eq_ok made
    have all := scheduleAll_accounts s.plan.actions (moves.wellFormed wf) (congrArg Prod.snd done)
    have shown : Accounts s₁.log r [] s₁.log { r with snapshot := s₁.snapshot } := .same rfl rfl rfl
    rw [done] at all
    rw [hm, ← List.append_nil (asked ..)]
    exact (seen.append all).append shown

end Scheduler

end TableMigration
