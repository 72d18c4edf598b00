import TableMigration.Proofs.Faultless
import TableMigration.Proofs.Tracking

/-!
# What a call can fail of

A call comes to a stop at the first unit that is refused and at the first comparison that crashes,
and at nothing else. A task that is ready for an action has a stage for it, and a unit that is listed
as new still is when its turn comes, because ids are unique and only units ahead of it were started
since.
-/

namespace TableMigration

namespace Request

def fault? : Request → Option Fault
  | submit _ .running | submit _ (.finished _) => none
  | submit _ (.refused e) => some (.dispatch e)
  | validate _ _ (.crashed payload) => some (.crash payload)
  | validate _ _ .passed | validate _ _ .rejected => none

theorem fault?_eq_none_iff {q : Request} : q.fault? = none ↔ Conduct.faultless.answers q := by
  cases q with
  | submit h receipt =>
    cases receipt with
    | running => exact iff_of_true rfl trivial
    | finished o => exact iff_of_true rfl trivial
    | refused e => exact iff_of_false (Option.some_ne_none _) id
  | validate owner a verdict =>
    cases verdict with
    | passed => exact iff_of_true rfl trivial
    | rejected => exact iff_of_true rfl trivial
    | crashed payload => exact iff_of_false (Option.some_ne_none _) id

theorem of_fault? {q : Request} {f : Fault} (h : q.fault? = some f) :
    (∃ u e, q = .submit u (.refused e) ∧ f = .dispatch e) ∨
      ∃ owner a payload, q = .validate owner a (.crashed payload) ∧ f = .crash payload := by
  cases q with
  | submit u receipt =>
    cases receipt with
    | running => cases h
    | finished o => cases h
    | refused e => exact Or.inl ⟨u, e, rfl, (Option.some.inj h).symm⟩
  | validate owner a verdict =>
    cases verdict with
    | passed => cases h
    | rejected => cases h
    | crashed payload => exact Or.inr ⟨owner, a, payload, rfl, (Option.some.inj h).symm⟩

end Request

/-- None of the requests comes back with a fault, or just the last does, and then one of the tasks is
left unfinished. -/
inductive Stops (ts : List Task) : List Request → Option Fault → Prop
  | never {qs : List Request} (clean : ∀ q ∈ qs, q.fault? = none) : Stops ts qs none
  | last {qs : List Request} {q : Request} {f : Fault} (clean : ∀ p ∈ qs, p.fault? = none)
      (stops : q.fault? = some f) (left : ∃ t ∈ ts, ¬t.Done) : Stops ts (qs ++ [q]) (some f)

namespace Stops

variable {ts ts' : List Task} {qs qs' : List Request} {q : Request} {f : Option Fault}

theorem clean (h : Stops ts qs none) : ∀ q ∈ qs, q.fault? = none := by
  cases h with
  | never clean => exact clean

theorem append (h : Stops ts qs none) (h' : Stops ts' qs' f) : Stops ts' (qs ++ qs') f := by
  cases h' with
  | never clean' => exact .never (List.forall_mem_append.mpr ⟨h.clean, clean'⟩)
  | last clean' stops left =>
    rw [← List.append_assoc]
    exact .last (List.forall_mem_append.mpr ⟨h.clean, clean'⟩) stops left

theorem cons (h : q.fault? = none) (h' : Stops ts qs f) : Stops ts (q :: qs) f := by
  have head : Stops ts [q] none := .never (List.forall_mem_singleton.mpr h)
  exact head.append h'

theorem single {f : Fault} (stops : q.fault? = some f) (left : ∃ t ∈ ts, ¬t.Done) :
    Stops ts [q] (some f) := by
  rw [← List.nil_append [q]]
  exact .last (List.forall_mem_nil _) stops left

theorem mono (h : Stops ts qs f) (sub : ts ⊆ ts') : Stops ts' qs f := by
  cases h with
  | never clean => exact .never clean
  | last clean stops left =>
    obtain ⟨t, ht, undone⟩ := left
    exact .last clean stops ⟨t, sub ht, undone⟩

theorem split {f : Fault} (h : Stops ts qs (some f)) : ∃ before q, qs = before ++ [q] ∧
    (∀ p ∈ before, p.fault? = none) ∧ q.fault? = some f ∧ ∃ t ∈ ts, ¬t.Done := by
  cases h with
  | last clean stops left => exact ⟨_, _, rfl, clean, stops, left⟩

section
variable (calm : ∀ owner a payload, .validate owner a (.crashed payload) ∉ qs)
include calm

theorem refused_last {f : Fault} (h : Stops ts qs (some f)) : ∃ before u e,
    qs = before ++ [.submit u (.refused e)] ∧ f = .dispatch e ∧
    ∀ u' e', .submit u' (.refused e') ∉ before := by
  obtain ⟨before, q, rfl, clean, failed, -⟩ := h.split
  rcases Request.of_fault? failed with ⟨u, e, rfl, rfl⟩ | ⟨owner, a, payload, rfl, -⟩
  · refine ⟨before, u, e, rfl, rfl, fun u' e' earlier => ?_⟩
    cases clean _ earlier
  · exact absurd (List.mem_append_right _ (List.mem_singleton_self _)) (calm owner a payload)

theorem stopped_iff (h : Stops ts qs f) :
    (∃ g, f = some g) ↔ ∃ u e, .submit u (.refused e) ∈ qs := by
  constructor
  · rintro ⟨g, rfl⟩
    obtain ⟨before, u, e, rfl, -, -⟩ := h.refused_last calm
    exact ⟨u, e, List.mem_append_right _ (List.mem_singleton_self _)⟩
  · rintro ⟨u, e, refused⟩
    cases f with
    | some g => exact ⟨g, rfl⟩
    | none => cases h.clean _ refused

end

end Stops

/-! ## Looking up -/

namespace Stage

theorem unitProgress?_of_waiting {s : Stage} (wf : s.WellFormed) {id : String} (waiting : id ∈ s.newIds) :
    s.unitProgress? id = some .new := by
  obtain ⟨u, hu, new, rfl⟩ := mem_newIds.mp waiting
  rw [unitProgress?_of_mem wf.nodup hu, new]

theorem waiting_setUnit {s : Stage} {id j : String} (waiting : j ∈ s.newIds) (ne : j ≠ id) (p : Progress) :
    j ∈ (s.setUnit id p).newIds := by
  obtain ⟨u, hu, new, rfl⟩ := mem_newIds.mp waiting
  exact mem_newIds.mpr ⟨u, List.mem_map.mpr ⟨u, hu, if_neg ne⟩, new, rfl⟩

theorem newIds_nodup {s : Stage} (nodup : s.ids.Nodup) : s.newIds.Nodup :=
  nodup.sublist (List.filter_sublist.map _)

end Stage

theorem Task.start_of_waiting {t : Task} (wf : t.WellFormed) {s : Stage} (hs : s ∈ t.stages) {id : String}
    (waiting : id ∈ s.newIds) :
    t.start s.action id = .ok (some (t.replace (s.setUnit id .running))) := by
  have new := Stage.unitProgress?_of_waiting (wf.stages s hs) waiting
  simp only [start, wf.stage?_of_mem hs, Stage.start?, if_pos new]
  rfl

namespace Round

variable {σ δ ν : Type}

section
variable [Dispatcher δ] {owner : Nat} {a : Action} {t : Task}

/-- The units that a burst comes to, each with the task as it is then. -/
def tries (owner : Nat) (a : Action) (t : Task) (d : δ) : List String → List (Task × String)
  | [] => []
  | id :: ids =>
    (t, id) ::
      match t.start a id with
      | .error _ => []
      | .ok none => tries owner a t d ids
      | .ok (some t) =>
        match Dispatcher.submit d ⟨⟨t.name, a, id⟩, owner⟩ with
        | (_, .refused _) => []
        | (d, .running) => tries owner a t d ids
        | (d, .finished o) => tries owner a (t.finish a id o).1 d ids

theorem tries_of_start {t' : Task} {d d' : δ} {id : String} {receipt : Receipt}
    (hs : t.start a id = .ok (some t')) (hd : Dispatcher.submit d ⟨⟨t'.name, a, id⟩, owner⟩ = (d', receipt))
    (ids : List String) : tries owner a t d (id :: ids) = (t, id) ::
      match receipt with
      | .refused _ => []
      | .running => tries owner a t' d' ids
      | .finished o => tries owner a (t'.finish a id o).1 d' ids := by
  rw [tries]
  simp only [hs, hd]
  cases receipt <;> rfl

theorem tries_start (wf : t.WellFormed) {s : Stage} (hs : s ∈ t.stages) (ha : s.action = a) (d : δ)
    {ids : List String} (nodup : ids.Nodup) (waiting : ids ⊆ s.newIds) :
    (∀ p ∈ tries owner a t d ids, ∃ t', p.1.start a p.2 = .ok (some t')) ∧
      ((submitMoments owner a t d ids).filterMap (·.2.handle?)).map (·.unit) =
        (tries owner a t d ids).map (·.2) := by
  induction ids generalizing t s d with
  | nil => exact ⟨List.forall_mem_nil _, rfl⟩
  | cons id ids ih =>
    subst ha
    obtain ⟨new, others⟩ := List.cons_subset.mp waiting
    obtain ⟨once, nodup'⟩ := List.nodup_cons.mp nodup
    have apart : ∀ j ∈ ids, j ≠ id := fun j hj same => once (same ▸ hj)
    have started := Task.start_of_waiting wf hs new
    have wf' := wf.start started
    have hs' := Task.mem_replace_self hs (s.setUnit_action id .running)
    have running := Stage.unitProgress?_setUnit (Stage.unitProgress?_of_waiting (wf.stages s hs) new) .running
    have still : ids ⊆ (s.setUnit id .running).newIds := fun j hj =>
      Stage.waiting_setUnit (others hj) (apart j hj) .running
    generalize t.replace (s.setUnit id .running) = t' at started wf' hs'
    cases hd : Dispatcher.submit d ⟨⟨t'.name, s.action, id⟩, owner⟩ with
    | mk d' receipt =>
      rw [tries_of_start started hd, submitMoments_of_start started hd]
      cases receipt with
      | refused e => exact ⟨List.forall_mem_singleton.mpr ⟨t', started⟩, rfl⟩
      | running =>
        obtain ⟨starts, submitted⟩ := ih wf' hs' rfl d' nodup' still
        exact ⟨List.forall_mem_cons.mpr ⟨⟨t', started⟩, starts⟩, congrArg (id :: ·) submitted⟩
      | finished o =>
        have settled := Task.finish_of_running wf' hs' running o
        have wf'' := wf'.finish s.action id o
        have left := Task.mem_replace_self hs' (Stage.setUnit_action _ id o.progress)
        rw [← settled] at left
        obtain ⟨starts, submitted⟩ := ih wf'' left rfl d' nodup'
          fun j hj => Stage.waiting_setUnit (still hj) (apart j hj) o.progress
        exact ⟨List.forall_mem_cons.mpr ⟨⟨t', started⟩, starts⟩, congrArg (id :: ·) submitted⟩

end

/-! ## Coming to a task -/

/-- A round comes to a task, which may be ready or not. -/
structure Arrival (σ δ ν : Type) where
  owner : Nat
  action : Action
  task : Task
  round : Round σ δ ν

namespace Arrival

variable [Dispatcher δ]

def tries (v : Arrival σ δ ν) : List (Task × String) :=
  let t := v.task.refresh
  if !t.isReady v.action || !v.round.window.isOpen || v.action.isCompare then []
  else
    match t.stage? v.action with
    | none => []
    | some s => Round.tries v.owner v.action t v.round.dispatcher s.newIds

structure Smooth [Validator ν] (v : Arrival σ δ ν) : Prop where
  found : v.task.refresh.isReady v.action = true → ∃ s, v.task.refresh.stage? v.action = some s
  set : v.task.refresh.isReady v.action = true →
    ∀ p, ∃ t, v.task.refresh.setProgress v.action p = .ok t
  started : ∀ q ∈ v.tries, ∃ t, q.1.start v.action q.2 = .ok (some t)
  submitted : ((admitMoments v.owner v.action v.task v.round).filterMap (·.2.handle?)).map (·.unit) =
    v.tries.map (·.2)

theorem smooth [Validator ν] {v : Arrival σ δ ν} (wf : v.task.WellFormed) : v.Smooth := by
  have wf' := wf.of_shape (Task.shape_refresh v.task)
  have ready : v.task.refresh.isReady v.action = true → ∃ s ∈ v.task.refresh.stages,
      s.action = v.action ∧ v.task.refresh.stage? v.action = some s := by
    intro ready
    obtain ⟨s, hs, ha, -⟩ := Task.ready_cases wf ready
    exact ⟨s, hs, ha, ha ▸ wf'.stage?_of_mem hs⟩
  have burst : (∀ q ∈ v.tries, ∃ t, q.1.start v.action q.2 = .ok (some t)) ∧
      ((admitMoments v.owner v.action v.task v.round).filterMap (·.2.handle?)).map (·.unit) =
        v.tries.map (·.2) := by
    unfold tries admitMoments
    by_cases idle : (!v.task.refresh.isReady v.action || !v.round.window.isOpen) = true
    · simp [idle]
    · by_cases compare : v.action.isCompare = true
      · simp [idle, compare, Request.handle?]
      · simp only [idle, compare]
        have ready' : v.task.refresh.isReady v.action = true := by simp_all
        obtain ⟨s, hs, ha, found⟩ := ready ready'
        rw [found]
        exact tries_start wf' hs ha _ (Stage.newIds_nodup (wf'.stages s hs).nodup) (List.Subset.refl _)
  refine ⟨fun h => ?_, fun h p => ?_, burst.1, burst.2⟩
  · obtain ⟨s, -, -, found⟩ := ready h
    exact ⟨s, found⟩
  · obtain ⟨s, hs, ha, -⟩ := ready h
    exact ⟨_, ha ▸ Task.setProgress_of_mem wf' hs p⟩

end Arrival

structure Arrives [Dispatcher δ] [Validator ν] (vs : List (Arrival σ δ ν)) (qs : List (Task × Request)) :
    Prop where
  asked_eq : qs = vs.flatMap fun v => admitMoments v.owner v.action v.task v.round
  wellFormed : ∀ v ∈ vs, v.task.WellFormed

namespace Arrives

variable [Dispatcher δ] [Validator ν] {vs vs' : List (Arrival σ δ ν)} {qs qs' : List (Task × Request)}

theorem nil : Arrives ([] : List (Arrival σ δ ν)) [] :=
  ⟨rfl, List.forall_mem_nil _⟩

theorem append (h : Arrives vs qs) (h' : Arrives vs' qs') : Arrives (vs ++ vs') (qs ++ qs') := by
  constructor
  · rw [List.flatMap_append, ← h.asked_eq, ← h'.asked_eq]
  · exact List.forall_mem_append.mpr ⟨h.wellFormed, h'.wellFormed⟩

end Arrives

section
variable [NameStore σ] [Dispatcher δ] [Validator ν]

def arrivals (a : Action) (owner : Nat) (r : Round σ δ ν) : List Task → List (Arrival σ δ ν)
  | [] => []
  | t :: ts =>
    ⟨owner, a, t, r⟩ ::
      match r.admitTask owner a t with
      | (_, r, .next) => arrivals a (owner + 1) r ts
      | _ => []

theorem arrivals_cons (a : Action) (owner : Nat) (r : Round σ δ ν) (t : Task) (ts : List Task) :
    r.arrivals a owner (t :: ts) = ⟨owner, a, t, r⟩ :: if (r.admitTask owner a t).2.2 = .next then
      (r.admitTask owner a t).2.1.arrivals a (owner + 1) ts else [] := by
  rw [arrivals]
  generalize r.admitTask owner a t = out
  obtain ⟨t', r', course⟩ := out
  cases course <;> rfl

theorem run_arrives (a : Action) (owner : Nat) (r : Round σ δ ν) (ts : List Task)
    (wf : ∀ t ∈ ts, t.WellFormed) :
    Arrives (r.arrivals a owner ts) (asked owner (r.moments a owner ts)) := by
  have head : ∀ (owner : Nat) (r : Round σ δ ν) {t : Task}, t.WellFormed →
      Arrives [⟨owner, a, t, r⟩] (admitMoments owner a t r) := fun owner r t hwf =>
    ⟨(List.flatMap_singleton ..).symm, List.forall_mem_singleton.mpr hwf⟩
  refine run_induction (R := fun owner r ts ms _ => Arrives (r.arrivals a owner ts) (asked owner ms))
    (fun _ _ => .nil) ?_ ?_ owner r wf
  · intro owner r t ts ms out hwf beyond course rest
    rw [asked_cons a owner r hwf beyond, arrivals_cons, if_pos course]
    exact (head owner r hwf).append rest
  · intro owner r t ts hwf course
    rw [asked_head (owner_of_mem_admitMoments a owner r hwf), arrivals_cons, if_neg course]
    exact head owner r hwf

end

/-! ## Stopping -/

section
variable [Dispatcher δ]

theorem submit_stops (owner : Nat) (a : Action) {t : Task} (wf : t.WellFormed) (present : a ∈ t.actions)
    (r : Round σ δ ν) (ids : List String) : Stops [(r.submit owner a t ids).1]
      ((submitMoments owner a t r.dispatcher ids).map (·.2)) (r.submit owner a t ids).2.2 := by
  fun_induction Round.submit owner a t r ids with
  | case1 t r => exact .never (List.forall_mem_nil _)
  | case2 t r id ids f hs => exact absurd hs (Task.start_ne_error present id f)
  | case3 t r id ids hs ih =>
    simp only [submitMoments, hs]
    exact ih wf present
  | case4 t r id ids t' hs h d r' e hd =>
    rw [submitMoments_of_start hs hd]
    exact .single rfl ⟨t', List.mem_singleton_self _, Task.not_done_of_started hs⟩
  | case5 t r id ids t' hs h d r' admitted hd ih =>
    rw [submitMoments_of_start hs hd]
    exact .cons rfl (ih (wf.start hs) (Task.actions_eq_of_shape (Task.start_shape wf hs) ▸ present))
  | case6 t r id ids t' hs h d r' admitted o hd ih =>
    rw [submitMoments_of_start hs hd]
    have shape := (Task.finish_shape (wf.start hs) a id o).trans (Task.start_shape wf hs)
    exact .cons rfl (ih ((wf.start hs).finish a id o) (Task.actions_eq_of_shape shape ▸ present))

variable [NameStore σ] [Validator ν]

theorem admitTask_stops {t : Task} (wf : t.WellFormed) (owner : Nat) (a : Action) (r : Round σ δ ν) :
    Stops [(r.admitTask owner a t).1] ((admitMoments owner a t r).map (·.2))
      (r.admitTask owner a t).2.2.fault? := by
  have wf' := wf.of_shape (Task.shape_refresh t)
  have visit := admitTask_visit wf owner a r
  generalize r.admitTask owner a t = out, admitMoments owner a t r = ms at visit ⊢
  cases visit with
  | idle passed =>
    rcases passed with ⟨-, rfl⟩ | ⟨-, rfl⟩
    · exact .never (List.forall_mem_nil _)
    · exact .never (List.forall_mem_nil _)
  | crash turn asked =>
    have undone : ¬t.refresh.Done := fun done =>
      Stage.not_done_of_accepts turn.accepts (done _ turn.found)
    exact .single rfl ⟨_, List.mem_singleton_self _, undone⟩
  | @judge _ passed _ turn compare empty asked =>
    refine .never (List.forall_mem_singleton.mpr ?_)
    cases passed <;> rfl
  | skip turn gated empty => exact .never (List.forall_mem_nil _)
  | @halt t' r' f s turn submitted =>
    have stops := submit_stops owner a wf' turn.present r s.newIds
    rwa [submitted] at stops
  | @work t' r' s turn _ submitted =>
    have stops := submit_stops owner a wf' turn.present r s.newIds
    rw [submitted] at stops
    exact .never stops.clean

theorem run_stops (a : Action) (owner : Nat) (r : Round σ δ ν) (ts : List Task)
    (wf : ∀ t ∈ ts, t.WellFormed) : Stops (r.run a owner ts).1
      ((r.moments a owner ts).map (·.request)) (r.run a owner ts).2.2 := by
  refine run_induction (R := fun _ _ _ ms out => Stops out.1 (ms.map (·.request)) out.2.2)
    (fun _ _ => .never (List.forall_mem_nil _)) ?_ ?_ owner r wf
  · intro owner r t ts ms out hwf _ course rest
    have head := admitTask_stops hwf owner a r
    rw [course] at head
    rw [List.map_append, List.map_map, List.map_map]
    exact head.append (rest.mono (List.subset_cons_self ..))
  · intro owner r t ts hwf _
    rw [List.map_map]
    exact (admitTask_stops hwf owner a r).mono (by simp)

end

end Round

namespace Scheduler

variable {σ δ ν : Type} [NameStore σ] [Dispatcher δ] [Validator ν]

def errorOf : Except Fault Report → Option Fault
  | .error f => some f
  | .ok _ => none

def fault? (s : Scheduler σ δ ν) : Call → Option Fault
  | .tick => errorOf s.tick.2
  | .observe _ => none
  | .schedule a report => (s.schedule a report).2.2

theorem schedule_stops (s : Scheduler σ δ ν) (wf : ∀ t ∈ s.tasks, t.WellFormed) (a : Action)
    (report : Report) : Stops (s.schedule a report).1.tasks
      ((s.scheduleMoments a report).map (·.request)) (s.schedule a report).2.2 := by
  rcases s.schedule_cases a report with ⟨window, he, hm⟩ | ⟨reason, he, hm⟩
  · rw [he, hm]
    exact Round.run_stops a 0 _ s.tasks wf
  · rw [he, hm]
    exact .never (List.forall_mem_nil _)

theorem scheduleAll_stops (actions : List Action) {s : Scheduler σ δ ν}
    (wf : ∀ t ∈ s.tasks, t.WellFormed) (report : Report) :
    Stops (s.scheduleAll report actions).1.tasks ((s.scheduleAllMoments report actions).map (·.request))
      (errorOf (s.scheduleAll report actions).2) := by
  refine scheduleAll_induction (R := fun _ _ _ ms out => Stops out.1.tasks (ms.map (·.request)) (errorOf out.2))
    (fun _ _ => .never (List.forall_mem_nil _)) ?_ ?_ actions wf report
  · intro s a _ report ms out wf done rest
    have first := schedule_stops s wf a report
    rw [done] at first
    rw [List.map_append]
    exact first.append rest
  · intro s a _ report f wf fault
    have stops := schedule_stops s wf a report
    rwa [fault] at stops

theorem perform_stops (s : Scheduler σ δ ν) (wf : ∀ t ∈ s.tasks, t.WellFormed) (c : Call) :
    Stops (s.perform c).tasks ((s.moments c).map (·.request)) (s.fault? c) := by
  cases c with
  | observe report => exact .never (List.forall_mem_nil _)
  | schedule a report => exact schedule_stops s wf a report
  | tick =>
    have seen := observe_evolves (w := .any) s .empty
    rcases s.tick_cases with ⟨-, hm, he⟩ | ⟨s', result, done, hm, he⟩
    · rw [perform, fault?, hm, he]
      exact .never (List.forall_mem_nil _)
    · have all := scheduleAll_stops s.plan.actions (seen.wellFormed wf) (s.observe .empty).2.1
      rw [done] at all
      rw [perform, fault?, hm, he]
      cases result with
      | error f => exact all
      | ok report => exact all

/-! ## Arrivals of a call -/

def windowArrivals (s : Scheduler σ δ ν) (a : Action) (report : Report) (window : Window) :
    List (Round.Arrival σ δ ν) :=
  Round.arrivals a 0 ⟨window, s.log, s.dispatcher, s.validator, s.counts, s.handles, report⟩ s.tasks

def scheduleArrivals (s : Scheduler σ δ ν) (a : Action) (report : Report) : List (Round.Arrival σ δ ν) :=
  match s.gate.admission a s.tasks with
  | .ungated => s.windowArrivals a report .unbounded
  | .opened n c => s.windowArrivals a report (.bounded n c)
  | .saturated _ _ | .unconfigured => []

def scheduleAllArrivals (s : Scheduler σ δ ν) (report : Report) : List Action → List (Round.Arrival σ δ ν)
  | [] => []
  | a :: rest =>
    s.scheduleArrivals a report ++
      match s.schedule a report with
      | (_, _, some _) => []
      | (s, report, none) => s.scheduleAllArrivals report rest

def arrivals (s : Scheduler σ δ ν) : Call → List (Round.Arrival σ δ ν)
  | .tick =>
    match s.observe .empty with
    | (_, _, true) => []
    | (s, report, false) => s.scheduleAllArrivals report s.plan.actions
  | .observe _ => []
  | .schedule a report => s.scheduleArrivals a report

theorem schedule_arrives (s : Scheduler σ δ ν) (wf : ∀ t ∈ s.tasks, t.WellFormed) (a : Action)
    (report : Report) :
    Round.Arrives (s.scheduleArrivals a report) (asked 0 (s.scheduleMoments a report)) := by
  unfold scheduleArrivals scheduleMoments
  cases s.gate.admission a s.tasks with
  | ungated => exact Round.run_arrives a 0 _ s.tasks wf
  | opened n c => exact Round.run_arrives a 0 _ s.tasks wf
  | saturated n c => exact .nil
  | unconfigured => exact .nil

theorem scheduleAllArrivals_cons (s : Scheduler σ δ ν) (report : Report) (a : Action) (rest : List Action) :
    s.scheduleAllArrivals report (a :: rest) = s.scheduleArrivals a report ++
      if (s.schedule a report).2.2 = none then
        (s.schedule a report).1.scheduleAllArrivals (s.schedule a report).2.1 rest else [] := by
  rw [scheduleAllArrivals]
  generalize s.schedule a report = out
  obtain ⟨s', report', fault⟩ := out
  cases fault <;> rfl

theorem scheduleAll_arrives (actions : List Action) {s : Scheduler σ δ ν}
    (wf : ∀ t ∈ s.tasks, t.WellFormed) (report : Report) :
    Round.Arrives (s.scheduleAllArrivals report actions) (asked 0 (s.scheduleAllMoments report actions)) := by
  refine scheduleAll_induction (R := fun s report actions ms _ =>
    Round.Arrives (s.scheduleAllArrivals report actions) (asked 0 ms)) (fun _ _ => .nil) ?_ ?_ actions wf report
  · intro s a rest report ms out wf done later
    rw [scheduleAllArrivals_cons, if_pos done, asked_append]
    exact (schedule_arrives s wf a report).append later
  · intro s a rest report f wf fault
    rw [scheduleAllArrivals_cons, if_neg (by simp [fault]), List.append_nil]
    exact schedule_arrives s wf a report

theorem perform_arrives (s : Scheduler σ δ ν) (wf : ∀ t ∈ s.tasks, t.WellFormed) (c : Call) :
    Round.Arrives (s.arrivals c) (asked 0 (s.moments c)) := by
  cases c with
  | observe report => exact .nil
  | schedule a report => exact schedule_arrives s wf a report
  | tick =>
    have seen := observe_evolves (w := .any) s .empty
    unfold arrivals moments
    generalize s.observe .empty = out at seen
    obtain ⟨s', report, finished⟩ := out
    cases finished with
    | true => exact .nil
    | false => exact scheduleAll_arrives s'.plan.actions (seen.wellFormed wf) report

/-- In any run a call during which the validator does not crash stops at a fault exactly if a unit is
refused, and then with what this unit, the last that was submitted, was refused with. No lookup ever
fails: each task that is ready for an action has its stage, and each unit that is come to is new. -/
theorem only_refusals_stop {tasks : List Task} (fresh : ∀ t ∈ tasks, t.Fresh) {plan : Plan} {gate : Gate}
    {log : FailoverLog σ} {d : δ} {v : ν} {s : Scheduler σ δ ν}
    (run : Reaches .any (Scheduler.new plan tasks gate log d v) s) (c : Call) :
    Exchange s.counts 0 s.outside (s.moments c) (s.perform c).outside ∧
    ((∀ owner a payload, .validate owner a (.crashed payload) ∉ (s.moments c).map (·.request)) →
      ((∃ f, s.fault? c = some f) ↔ ∃ h e, .submit h (.refused e) ∈ (s.moments c).map (·.request)) ∧
      ∀ f, s.fault? c = some f → ∃ before h e,
        (s.moments c).map (·.request) = before ++ [.submit h (.refused e)] ∧ f = .dispatch e ∧
        ∀ h' e', .submit h' (.refused e') ∉ before) ∧
    (∀ task a, s.fault? c ≠ some (.unknownAction task a)) ∧
    asked 0 (s.moments c) =
      (s.arrivals c).flatMap (fun v => Round.admitMoments v.owner v.action v.task v.round) ∧
    ∀ v ∈ s.arrivals c, v.Smooth := by
  have start := new_wellFormed fresh plan gate log d v
  have wf := (run.evolves start).wellFormed start
  have stops := perform_stops s wf c
  have arrives := perform_arrives s wf c
  refine ⟨perform_exchange s wf c, fun calm => ⟨stops.stopped_iff calm, fun f stopped => ?_⟩,
    fun task a stopped => ?_, arrives.asked_eq, fun v hv => ?_⟩
  · rw [stopped] at stops
    exact stops.refused_last calm
  · rw [stopped] at stops
    obtain ⟨-, q, -, -, failed, -⟩ := stops.split
    rcases Request.of_fault? failed with ⟨h, e, -, same⟩ | ⟨owner, a, payload, -, same⟩
    · cases same
    · cases same
  · exact Round.Arrival.smooth (arrives.wellFormed v hv)

def oneTableRefused : Scheduler MemoryStore PolicyDispatcher FixedValidator :=
  .new OneTable.plan [OneTable.task] (.uniform OneTable.plan 1) (.openOn ⟨[]⟩)
    (.ofPolicy ⟨.hold, .empty, [], [.createTable]⟩) ⟨[], [], []⟩

theorem oneTable_refused :
    (oneTableRefused.moments .tick).map (·.request) =
      [.submit (OneTable.unit "p=1") (.refused (.refused .createTable "db.t"))] ∧
    (∃ before h e, (oneTableRefused.moments .tick).map (·.request) = before ++ [.submit h (.refused e)] ∧
      oneTableRefused.fault? .tick = some (.dispatch e)) ∧
    (oneTableRefused.arrivals .tick).map (fun v => (v.action, v.tries.map (·.2))) =
      [(.createTable, ["p=1"])] := by
  have asked : (oneTableRefused.moments .tick).map (·.request) =
      [.submit (OneTable.unit "p=1") (.refused (.refused .createTable "db.t"))] := rfl
  obtain ⟨-, stops, -, -, -⟩ := only_refusals_stop OneTable.tasks_fresh (.refl (a := oneTableRefused)) .tick
  have calm : ∀ owner a payload, .validate owner a (.crashed payload) ∉
      (oneTableRefused.moments .tick).map (·.request) := by
    intro owner a payload crashed
    rw [asked] at crashed
    cases List.mem_singleton.mp crashed
  obtain ⟨f, stopped⟩ := (stops calm).1.mpr ⟨_, _, List.mem_singleton_self _⟩
  obtain ⟨before, h, e, split, rfl, -⟩ := (stops calm).2 f stopped
  exact ⟨asked, ⟨before, h, e, split, stopped⟩, rfl⟩

end Scheduler

end TableMigration
