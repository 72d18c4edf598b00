import TableMigration.Proofs.Runs

/-!
# The moments of a call are what it asks

The moments are computed beside the code. Here they are tied to it: the dispatcher, the validator
and the handles that a call leaves behind are those that come of its moments, taken in order, each
answered by the dispatcher or the validator as it is then.
-/

namespace TableMigration

/-- What requests go to, and the handles given out so far. -/
structure Outside (δ ν : Type) where
  dispatcher : δ
  validator : ν
  handles : List Handle

/-- The requests of `ms`, made in this order, get these answers and lead from one outside to
another. The first task of each moment is at position `k`. -/
inductive Exchange {δ ν : Type} [Dispatcher δ] [Validator ν] (counts : RowCounts) (k : Nat) :
    Outside δ ν → List Moment → Outside δ ν → Prop
  | nil (x : Outside δ ν) : Exchange counts k x [] x
  | submit {x y : Outside δ ν} {ms : List Moment} {ts : List Task} {h : Handle} {d : δ}
      {receipt : Receipt} (served : Dispatcher.submit x.dispatcher h = (d, receipt))
      (rest : Exchange counts k { x with dispatcher := d, handles := x.handles ++ [h] } ms y) :
      Exchange counts k x (⟨ts, .submit h receipt⟩ :: ms) y
  | validate {x y : Outside δ ν} {ms : List Moment} {ts : List Task} {i : Nat} {t : Task} {v : ν}
      {verdict : Verdict} (a : Action) (subject : ts[i]? = some t)
      (judged : Validator.validate x.validator counts t = (v, verdict))
      (rest : Exchange counts k { x with validator := v } ms y) :
      Exchange counts k x (⟨ts, .validate (k + i) a verdict⟩ :: ms) y

namespace Exchange

variable {δ ν : Type} [Dispatcher δ] [Validator ν] {counts : RowCounts} {k : Nat} {x y z : Outside δ ν}
  {ms ns : List Moment}

theorem append (h : Exchange counts k x ms y) (h' : Exchange counts k y ns z) :
    Exchange counts k x (ms ++ ns) z := by
  induction h with
  | nil x => exact h'
  | submit served _ ih => exact .submit served (ih h')
  | validate a subject judged _ ih => exact .validate a subject judged (ih h')

theorem cons_task (t : Task) (h : Exchange counts (k + 1) x ms y) :
    Exchange counts k x (ms.map fun m => ⟨t :: m.tasks, m.request⟩) y := by
  induction h with
  | nil x => exact .nil x
  | submit served _ ih => exact .submit served ih
  | @validate x y ms ts i u v verdict a subject judged _ ih =>
    have ahead : (t :: ts)[i + 1]? = some u := subject
    have head := Exchange.validate (k := k) a ahead judged ih
    rwa [Nat.add_comm i 1, ← Nat.add_assoc] at head

theorem handles_eq (h : Exchange counts k x ms y) :
    y.handles = x.handles ++ ms.filterMap (·.request.handle?) := by
  induction h with
  | nil x => simp
  | submit _ _ ih => rw [ih]; simp [Request.handle?]
  | validate _ _ _ _ ih => rw [ih]; simp [Request.handle?]

end Exchange

namespace Round

variable {σ δ ν : Type}

def outside (r : Round σ δ ν) : Outside δ ν := ⟨r.dispatcher, r.validator, r.handles⟩

theorem submit_exchange [Dispatcher δ] [Validator ν] (owner : Nat) (a : Action) (counts : RowCounts)
    (ts : List Task) (t : Task) (r : Round σ δ ν) (ids : List String) :
    Exchange counts owner r.outside
      ((submitMoments owner a t r.dispatcher ids).map fun m => ⟨m.1 :: ts, m.2⟩)
      (r.submit owner a t ids).2.1.outside := by
  fun_induction Round.submit owner a t r ids with
  | case1 t r => exact .nil _
  | case2 t r id ids f hs => simpa only [submitMoments, hs] using .nil _
  | case3 t r id ids hs ih => simpa only [submitMoments, hs] using ih
  | case4 t r id ids t' hs h d r' e hd =>
    rw [submitMoments_of_start hs hd]
    exact .submit hd (.nil _)
  | case5 t r id ids t' hs h d r' admitted hd ih =>
    rw [submitMoments_of_start hs hd]
    exact .submit hd ih
  | case6 t r id ids t' hs h d r' admitted o hd ih =>
    rw [submitMoments_of_start hs hd]
    exact .submit hd ih

structure Frame (r r' : Round σ δ ν) : Prop where
  counts : r'.counts = r.counts
  log : r'.log = r.log
  ceiling : r'.window.ceiling = r.window.ceiling
  allFinished : r'.report.allFinished = r.report.allFinished

theorem submit_frame [Dispatcher δ] (owner : Nat) (a : Action) (t : Task) (r : Round σ δ ν)
    (ids : List String) : Frame r (r.submit owner a t ids).2.1 := by
  fun_induction Round.submit owner a t r ids with
  | case1 | case2 | case4 => exact ⟨rfl, rfl, rfl, rfl⟩
  | case3 _ _ _ _ _ ih => exact ih
  | case5 _ _ _ _ _ _ _ _ _ _ _ ih => exact ⟨ih.counts, ih.log, ih.ceiling, ih.allFinished⟩
  | case6 _ _ _ _ _ _ _ _ _ _ _ _ ih => exact ⟨ih.counts, ih.log, ih.ceiling, ih.allFinished⟩

section
variable [NameStore σ] [Dispatcher δ] [Validator ν]

theorem admitTask_exchange {t : Task} (wf : t.WellFormed) (ts : List Task) (owner : Nat) (a : Action)
    (r : Round σ δ ν) :
    Exchange r.counts owner r.outside
      ((admitMoments owner a t r).map fun m => ⟨m.1 :: ts, m.2⟩) (r.admitTask owner a t).2.1.outside ∧
    (r.admitTask owner a t).2.1.counts = r.counts := by
  have subject : (t.refresh :: ts)[0]? = some t.refresh := rfl
  have visit := admitTask_visit wf owner a r
  generalize r.admitTask owner a t = out, admitMoments owner a t r = ms at visit ⊢
  cases visit with
  | idle passed => exact ⟨.nil _, rfl⟩
  | crash turn asked => exact ⟨.validate a subject asked (.nil _), rfl⟩
  | judge turn compare empty asked => exact ⟨.validate a subject asked (.nil _), rfl⟩
  | skip turn gated empty => exact ⟨.nil _, rfl⟩
  | @halt _ _ _ s turn submitted =>
    have asked := submit_exchange owner a r.counts ts t.refresh r s.newIds
    have frame := submit_frame owner a t.refresh r s.newIds
    rw [submitted] at asked frame
    exact ⟨asked, frame.counts⟩
  | @work _ _ s turn _ submitted =>
    have asked := submit_exchange owner a r.counts ts t.refresh r s.newIds
    have frame := submit_frame owner a t.refresh r s.newIds
    rw [submitted] at asked frame
    exact ⟨asked, frame.counts⟩

theorem run_exchange (a : Action) (owner : Nat) (r : Round σ δ ν) (ts : List Task)
    (wf : ∀ t ∈ ts, t.WellFormed) :
    Exchange r.counts owner r.outside (r.moments a owner ts) (r.run a owner ts).2.1.outside := by
  refine run_relates (R := fun owner r _ ms _ r' => Exchange r.counts owner r.outside ms r'.outside)
    (fun _ _ _ => .nil _) ?_ owner r wf
  intro owner r t ts ms ts' r' hwf _ rest
  obtain ⟨asked, frame⟩ := admitTask_exchange hwf ts owner a r
  exact asked.append (.cons_task _ (frame ▸ rest))

end

end Round

namespace Scheduler

variable {σ δ ν : Type} [NameStore σ] [Dispatcher δ] [Validator ν]

def outside (s : Scheduler σ δ ν) : Outside δ ν := ⟨s.dispatcher, s.validator, s.handles⟩

theorem schedule_exchange (s : Scheduler σ δ ν) (wf : ∀ t ∈ s.tasks, t.WellFormed) (a : Action)
    (report : Report) : Exchange s.counts 0 s.outside (s.scheduleMoments a report)
      (s.schedule a report).1.outside ∧ (s.schedule a report).1.counts = s.counts := by
  rcases s.schedule_cases a report with ⟨window, he, hm⟩ | ⟨reason, he, hm⟩
  · rw [he, hm]
    have asked := Round.run_exchange a 0
      ⟨window, s.log, s.dispatcher, s.validator, s.counts, s.handles, report⟩ s.tasks wf
    exact ⟨asked, rfl⟩
  · rw [he, hm]
    exact ⟨.nil _, rfl⟩

/-- The requests of a call are its moments, each answered by the outside as it is then. -/
theorem perform_exchange (s : Scheduler σ δ ν) (wf : ∀ t ∈ s.tasks, t.WellFormed) (c : Call) :
    Exchange s.counts 0 s.outside (s.moments c) (s.perform c).outside := by
  refine (perform_relates (R := fun s ms s' => Exchange s.counts 0 s.outside ms s'.outside ∧
    s'.counts = s.counts) (fun _ => ⟨.nil _, rfl⟩) ?_ ?_ (fun _ _ _ => ⟨.nil _, rfl⟩) wf c).1
  · rintro s s' s'' ms ms' ⟨asked, frame⟩ ⟨later, frame'⟩
    exact ⟨asked.append (frame ▸ later), frame'.trans frame⟩
  · exact fun s a report wf => schedule_exchange s wf a report

end Scheduler

end TableMigration
