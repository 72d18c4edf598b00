import TableMigration.Proofs.Moves

/-!
# Rounds of admission, request by request

A moment is a request to the outside with the tasks as they are when it is made. The moments of a
round follow its code and are tied to it by what the round leaves behind: the handles given out,
the dispatcher and the validator are those of exactly these requests, in this order. Between the
start of a round and each of its moments, and its end, the tasks have only moved.
-/

namespace TableMigration

structure Moment where
  tasks : List Task
  request : Request

namespace Request

def owner : Request → Nat
  | submit h _ => h.owner
  | validate owner _ _ => owner

def action : Request → Action
  | submit h _ => h.action
  | validate _ a _ => a

def handle? : Request → Option Handle
  | submit h _ => some h
  | validate .. => none

/-- A request for the action `a` of the task `t` at position `owner`, whose time has come. -/
structure Proper (q : Request) (owner : Nat) (a : Action) (t : Task) : Prop where
  owner_eq : q.owner = owner
  action_eq : q.action = a
  present : a ∈ t.actions
  cleared : t.Cleared a
  handle : ∀ h, q.handle? = some h → h.task = t.name

end Request

def Moment.Proper (m : Moment) : Prop :=
  ∃ t, m.tasks[m.request.owner]? = some t ∧ m.request.Proper m.request.owner m.request.action t

theorem Task.Cleared.replace {t : Task} {s : Stage} (h : t.Cleared s.action) :
    (t.replace s).Cleared s.action := by
  exact Task.forall_mem_replace (fun hlt => absurd hlt (Nat.lt_irrefl _)) h

theorem Task.Cleared.start {t t' : Task} {a : Action} {id : String} (h : t.Cleared a)
    (hs : t.start a id = .ok (some t')) : t'.Cleared a := by
  obtain ⟨s, -, rfl, -, rfl⟩ := Task.start_eq_some hs
  exact Task.Cleared.replace (s := s.setUnit id .running) h

theorem Task.Cleared.finish {t : Task} {a : Action} (h : t.Cleared a) (wf : t.WellFormed)
    (id : String) (o : Outcome) : (t.finish a id o).1.Cleared a := by
  rcases Task.finish_cases wf a id o with he | ⟨s, -, rfl, -, he⟩
  · rw [he]; exact h
  · rw [he]; exact Task.Cleared.replace (s := s.setUnit id o.progress) h

/-- The tasks from position `k` on have each moved by themselves. -/
structure Evolves (w : Conduct) (k : Nat) (ts ts' : List Task) : Prop where
  length_eq : ts'.length = ts.length
  moves : ∀ (i : Nat) (t : Task), ts[i]? = some t → ∃ t', ts'[i]? = some t' ∧ t.Moves w (k + i) t'

namespace Evolves

variable {w : Conduct} {k : Nat} {ts ts' ts'' : List Task}

theorem refl (w : Conduct) (k : Nat) (ts : List Task) : Evolves w k ts ts :=
  ⟨rfl, fun _ t h => ⟨t, h, .refl⟩⟩

theorem trans (h : Evolves w k ts ts') (h' : Evolves w k ts' ts'') : Evolves w k ts ts'' := by
  refine ⟨h'.length_eq.trans h.length_eq, fun i t ht => ?_⟩
  obtain ⟨t', ht', moves⟩ := h.moves i t ht
  obtain ⟨t'', ht'', moves'⟩ := h'.moves i t' ht'
  exact ⟨t'', ht'', moves.trans moves'⟩

theorem cons {t t' : Task} (move : t.Moves w k t') (rest : Evolves w (k + 1) ts ts') :
    Evolves w k (t :: ts) (t' :: ts') := by
  refine ⟨by simp [rest.length_eq], fun i u hu => ?_⟩
  cases i with
  | zero => cases hu; exact ⟨t', rfl, move⟩
  | succ i =>
    obtain ⟨u', hu', moves⟩ := rest.moves i u hu
    exact ⟨u', hu', by rwa [Nat.add_right_comm] at moves⟩

theorem origin (h : Evolves w k ts ts') {i : Nat} {t' : Task} (ht' : ts'[i]? = some t') :
    ∃ t, ts[i]? = some t ∧ t.Moves w (k + i) t' := by
  obtain ⟨hi, -⟩ := List.getElem?_eq_some_iff.mp ht'
  rw [h.length_eq] at hi
  obtain ⟨t'', ht'', moves⟩ := h.moves i ts[i] (List.getElem?_eq_getElem hi)
  rw [ht'] at ht''
  exact ⟨ts[i], List.getElem?_eq_getElem hi, Option.some.inj ht'' ▸ moves⟩

theorem wellFormed (h : Evolves w k ts ts') (wf : ∀ t ∈ ts, t.WellFormed) :
    ∀ t ∈ ts', t.WellFormed := by
  intro t' ht'
  obtain ⟨i, hi⟩ := List.mem_iff_getElem?.mp ht'
  obtain ⟨t, ht, moves⟩ := h.origin hi
  exact moves.wellFormed (wf t (List.mem_of_getElem? ht))

theorem keeps {P : Task → Prop} (h : Evolves w k ts ts') (wf : ∀ t ∈ ts, t.WellFormed)
    (step : ∀ {owner : Nat} {t t' : Task}, t.WellFormed → t.Move w owner t' → P t → P t')
    (hp : ∀ t ∈ ts, P t) : ∀ t ∈ ts', P t := by
  intro t' ht'
  obtain ⟨i, hi⟩ := List.mem_iff_getElem?.mp ht'
  obtain ⟨t, ht, moves⟩ := h.origin hi
  have hm := List.mem_of_getElem? ht
  exact moves.keeps (wf t hm) (fun wf move => step wf move) (hp t hm)

theorem map_eq_of_moves {α : Type} {f : Task → α}
    (hf : ∀ {owner : Nat} {t t' : Task}, t ∈ ts → t.Moves w owner t' → f t' = f t)
    (h : Evolves w k ts ts') : ts'.map f = ts.map f := by
  refine List.ext_getElem? fun i => ?_
  rw [List.getElem?_map, List.getElem?_map]
  cases ht : ts[i]? with
  | none =>
    rw [List.getElem?_eq_none_iff] at ht
    rw [List.getElem?_eq_none_iff.mpr (h.length_eq ▸ ht)]
  | some t =>
    obtain ⟨t', ht', moves⟩ := h.moves i t ht
    rw [ht', Option.map_some, Option.map_some, hf (List.mem_of_getElem? ht) moves]

theorem map_eq {α : Type} {f : Task → α} (hf : ∀ {t t' : Task}, t'.shape = t.shape → f t' = f t)
    (h : Evolves w k ts ts') (wf : ∀ t ∈ ts, t.WellFormed) : ts'.map f = ts.map f :=
  h.map_eq_of_moves fun ht moves => hf (moves.shape_eq (wf _ ht))

theorem names_eq (h : Evolves w k ts ts') : ts'.map (·.name) = ts.map (·.name) :=
  h.map_eq_of_moves fun _ moves => moves.name_eq

end Evolves

def Course.fault? : Course → Option Fault
  | next | closed => none
  | fault f => some f

namespace Round

variable {σ δ ν : Type}

/-! ## Settling -/

section
variable [NameStore σ]

def conclude (r : Round σ δ ν) (t : Task) : Task × Round σ δ ν × Course :=
  let (t, r) := r.settle t
  (t, r, .next)

theorem settleTask_cases (t : Task) (log : FailoverLog σ) (report : Report) :
    (t.refresh.progress ≠ .succeeded ∧ settleTask t log report = (t.refresh, log, report)) ∨
    (t.refresh.progress = .succeeded ∧ settleTask t log report = (t.refresh, (log.record t.refresh.name).1,
      { report with newlyRecorded := report.newlyRecorded ++
          if (log.record t.refresh.name).2 then [t.refresh.name] else [] })) := by
  unfold settleTask
  by_cases done : t.refresh.progress = .succeeded
  · refine Or.inr ⟨done, ?_⟩
    rw [if_pos done]
    cases log.record t.refresh.name with
    | mk log new => cases new <;> simp
  · exact Or.inl ⟨done, if_neg done⟩

theorem settleTask_task (t : Task) (log : FailoverLog σ) (report : Report) :
    (settleTask t log report).1 = t.refresh := by
  obtain ⟨-, same⟩ | ⟨-, same⟩ := settleTask_cases t log report <;> rw [same]

@[simp] theorem conclude_task (r : Round σ δ ν) (t : Task) : (r.conclude t).1 = t.refresh :=
  settleTask_task t r.log r.report

end

/-! ## Submissions -/

section
variable [Dispatcher δ]

def submitMoments (owner : Nat) (a : Action) (t : Task) (d : δ) :
    List String → List (Task × Request)
  | [] => []
  | id :: ids =>
    match t.start a id with
    | .error _ => []
    | .ok none => submitMoments owner a t d ids
    | .ok (some t) =>
      let h : Handle := ⟨⟨t.name, a, id⟩, owner⟩
      let (d, receipt) := Dispatcher.submit d h
      (t, .submit h receipt) ::
        match receipt with
        | .refused _ => []
        | .running => submitMoments owner a t d ids
        | .finished o => submitMoments owner a (t.finish a id o).1 d ids

theorem submitMoments_of_start {owner : Nat} {a : Action} {t t' : Task} {d d' : δ} {id : String}
    {receipt : Receipt} (hs : t.start a id = .ok (some t'))
    (hd : Dispatcher.submit d ⟨⟨t'.name, a, id⟩, owner⟩ = (d', receipt)) (ids : List String) :
    submitMoments owner a t d (id :: ids) = (t', .submit ⟨⟨t'.name, a, id⟩, owner⟩ receipt) ::
      match receipt with
      | .refused _ => []
      | .running => submitMoments owner a t' d' ids
      | .finished o => submitMoments owner a (t'.finish a id o).1 d' ids := by
  rw [submitMoments]
  simp only [hs, hd]

variable {w : Conduct} {t : Task} {owner : Nat} {a : Action}

theorem start_keeps {t' : Task} {id : String} (wf : t.WellFormed) (cleared : t.Cleared a)
    (present : a ∈ t.actions) (hs : t.start a id = .ok (some t')) :
    t.Moves w owner t' ∧ t'.WellFormed ∧ t'.Cleared a ∧ a ∈ t'.actions := by
  have moves : t.Moves w owner t' := Task.moves_start cleared hs
  have shape := moves.shape_eq wf
  exact ⟨moves, wf.of_shape shape, cleared.start hs, Task.actions_eq_of_shape shape ▸ present⟩

theorem submit_moves (owner : Nat) (a : Action) (wf : t.WellFormed) (cleared : t.Cleared a)
    (present : a ∈ t.actions) (r : Round σ δ ν) (ids : List String)
    (conduct : ∀ m ∈ submitMoments owner a t r.dispatcher ids, w.answers m.2) :
    t.Moves w owner (r.submit owner a t ids).1 ∧
      ∀ m ∈ submitMoments owner a t r.dispatcher ids, t.Moves w owner m.1 ∧ m.2.Proper owner a m.1 := by
  fun_induction Round.submit owner a t r ids with
  | case1 t r => exact ⟨.refl, by simp [submitMoments]⟩
  | case2 t r id ids f hs => exact ⟨.refl, by simp [submitMoments, hs]⟩
  | case3 t r id ids hs ih =>
    simp only [submitMoments, hs] at conduct ⊢
    exact ih wf cleared present conduct
  | case4 t r id ids t' hs h d r' e hd =>
    obtain ⟨moves, -, cleared', present'⟩ := start_keeps wf cleared present hs
    rw [submitMoments_of_start hs hd]
    exact ⟨moves, List.forall_mem_singleton.mpr
      ⟨moves, rfl, rfl, present', cleared', fun _ he => Option.some.inj he ▸ rfl⟩⟩
  | case5 t r id ids t' hs h d r' admitted hd ih =>
    obtain ⟨moves, wf', cleared', present'⟩ := start_keeps wf cleared present hs
    rw [submitMoments_of_start hs hd] at conduct ⊢
    rw [List.forall_mem_cons] at conduct ⊢
    obtain ⟨rest, later⟩ := ih wf' cleared' present' conduct.2
    exact ⟨moves.trans rest,
      ⟨moves, rfl, rfl, present', cleared', fun _ he => Option.some.inj he ▸ rfl⟩,
      fun m hm => ⟨moves.trans (later m hm).1, (later m hm).2⟩⟩
  | case6 t r id ids t' hs h d r' admitted o hd ih =>
    obtain ⟨moves, wf', cleared', present'⟩ := start_keeps wf cleared present hs
    rw [submitMoments_of_start hs hd] at conduct ⊢
    rw [List.forall_mem_cons] at conduct ⊢
    have settled : t'.Moves w owner (t'.finish a id o).1 :=
      Task.moves_finish wf' (w.settles_of_finished _ o conduct.1)
    have shape := settled.shape_eq wf'
    obtain ⟨rest, later⟩ := ih (wf'.of_shape shape) (cleared'.finish wf' id o)
      (Task.actions_eq_of_shape shape ▸ present') conduct.2
    have moves' := moves.trans settled
    exact ⟨moves'.trans rest,
      ⟨moves, rfl, rfl, present', cleared', fun _ he => Option.some.inj he ▸ rfl⟩,
      fun m hm => ⟨moves'.trans (later m hm).1, (later m hm).2⟩⟩

end

/-! ## Rounds -/

/-- It is the turn of the stage `s` of `t`: all before it is done, it has something to start, and
the window is open. -/
structure Turn (r : Round σ δ ν) (a : Action) (t : Task) (s : Stage) : Prop where
  found : s ∈ t.stages
  action_eq : s.action = a
  cleared : t.Cleared a
  accepts : s.acceptsWork = true
  isOpen : r.window.isOpen = true

theorem Turn.present {r : Round σ δ ν} {a : Action} {t : Task} {s : Stage} (turn : r.Turn a t s) :
    a ∈ t.actions :=
  List.mem_map.mpr ⟨s, turn.found, turn.action_eq⟩

section
variable [NameStore σ] [Dispatcher δ] [Validator ν]

def admitMoments (owner : Nat) (a : Action) (t : Task) (r : Round σ δ ν) : List (Task × Request) :=
  let t := t.refresh
  if !t.isReady a || !r.window.isOpen then []
  else if a.isCompare then
    [(t, .validate owner a (Validator.validate r.validator r.counts t).2)]
  else
    match t.stage? a with
    | none => []
    | some s => submitMoments owner a t r.dispatcher s.newIds

def moments (a : Action) (owner : Nat) (r : Round σ δ ν) : List Task → List Moment
  | [] => []
  | t :: ts =>
    (admitMoments owner a t r).map (fun m => ⟨m.1 :: ts, m.2⟩) ++
      match r.admitTask owner a t with
      | (t, r, .next) => (moments a (owner + 1) r ts).map fun m => ⟨t :: m.tasks, m.request⟩
      | _ => []

/-- What admitting the task `t` for `a` can come to, and what is asked for it. -/
inductive Visit (owner : Nat) (a : Action) (t : Task) (r : Round σ δ ν) :
    Task × Round σ δ ν × Course → List (Task × Request) → Prop
  | idle {course : Course} (passed : t.isReady a = false ∧ course = .next ∨
      r.window.isOpen = false ∧ course = .closed) : Visit owner a t r (t, r, course) []
  | crash {v : ν} {payload : Payload} {s : Stage} (turn : r.Turn a t s)
      (asked : Validator.validate r.validator r.counts t = (v, .crashed payload)) :
      Visit owner a t r (t, { r with validator := v }, .fault (.crash payload))
        [(t, .validate owner a (.crashed payload))]
  | judge {v : ν} {passed : Bool} {s : Stage} (turn : r.Turn a t s) (compare : a.isCompare = true)
      (empty : s.units = []) (asked : Validator.validate r.validator r.counts t = (v, .ofBool passed)) :
      Visit owner a t r
        ({ r with
            validator := v
            report := { r.report with
              validations := r.report.validations ++ [(t.name, passed)] } }.conclude
          (t.replace { s with progress := if passed then .succeeded else .failed }))
        [(t, .validate owner a (.ofBool passed))]
  | skip {s : Stage} (turn : r.Turn a t s) (gated : a.isCompare = false) (empty : s.units = []) :
      Visit owner a t r
        ({ r with report :=
            { r.report with skippedEmpty := r.report.skippedEmpty ++ [(t.name, a)] } }.conclude
          (t.replace { s with progress := .succeeded })) []
  | halt {t' : Task} {r' : Round σ δ ν} {f : Fault} {s : Stage} (turn : r.Turn a t s)
      (submitted : r.submit owner a t s.newIds = (t', r', some f)) :
      Visit owner a t r (t', r', .fault f) (submitMoments owner a t r.dispatcher s.newIds)
  | work {t' : Task} {r' : Round σ δ ν} {s : Stage} (turn : r.Turn a t s) (nonempty : s.units ≠ [])
      (submitted : r.submit owner a t s.newIds = (t', r', none)) :
      Visit owner a t r (r'.conclude t') (submitMoments owner a t r.dispatcher s.newIds)

section
variable {a : Action} {t : Task} {r : Round σ δ ν} {s : Stage} (wf : t.WellFormed) (owner : Nat)
  (turn : r.Turn a t s)
include wf turn

theorem validate_visit (compare : a.isCompare = true) : Visit owner a t r (r.validate a t)
    [(t, .validate owner a (Validator.validate r.validator r.counts t).2)] := by
  have empty := (wf.stages s turn.found).compare (turn.action_eq ▸ compare)
  obtain rfl := turn.action_eq
  cases asked : Validator.validate r.validator r.counts t with
  | mk v verdict =>
    simp only [validate, asked, Task.setProgress_of_mem wf turn.found]
    cases verdict with
    | crashed payload => exact .crash turn asked
    | passed => exact .judge turn compare empty (show _ = (v, Verdict.ofBool true) from asked)
    | rejected => exact .judge turn compare empty (show _ = (v, Verdict.ofBool false) from asked)

theorem skip_visit (gated : a.isCompare = false) (empty : s.units = []) :
    Visit owner a t r (r.skip a t) [] := by
  obtain rfl := turn.action_eq
  simp only [skip, Task.setProgress_of_mem wf turn.found]
  exact .skip turn gated empty

end

theorem admitTask_visit {t : Task} (wf : t.WellFormed) (owner : Nat) (a : Action)
    (r : Round σ δ ν) :
    Visit owner a t.refresh r (r.admitTask owner a t) (admitMoments owner a t r) := by
  have wf' := wf.of_shape (Task.shape_refresh t)
  by_cases hr : t.refresh.isReady a = true
  · by_cases hw : r.window.isOpen = true
    · obtain ⟨s, found, ha, cleared, accepts⟩ := Task.ready_cases wf hr
      have turn : r.Turn a t.refresh s := ⟨found, ha, cleared, accepts, hw⟩
      have read : t.refresh.stage? a = some s := ha ▸ wf'.stage?_of_mem found
      by_cases compare : a.isCompare = true
      · have visit := validate_visit wf' owner turn compare
        simpa [admitTask, admitMoments, hr, hw, compare] using visit
      · rw [Bool.not_eq_true] at compare
        by_cases empty : s.units = []
        · have visit := skip_visit wf' owner turn compare empty
          simpa [admitTask, admitMoments, hr, hw, compare, read, Stage.hasUnits, Stage.newIds, empty,
            submitMoments] using visit
        · have has := Stage.hasUnits_iff.mpr empty
          simp only [admitTask, admitMoments, hr, hw, compare, read, has]
          cases submitted : r.submit owner a t.refresh s.newIds with
          | mk t' rest =>
            obtain ⟨r', fault⟩ := rest
            cases fault with
            | some f => exact .halt turn submitted
            | none => exact .work turn empty submitted
    · rw [Bool.not_eq_true] at hw
      have closed : Visit owner a t.refresh r (t.refresh, r, .closed) [] := .idle (Or.inr ⟨hw, rfl⟩)
      simpa [admitTask, admitMoments, hr, hw] using closed
  · rw [Bool.not_eq_true] at hr
    have next : Visit owner a t.refresh r (t.refresh, r, .next) [] := .idle (Or.inl ⟨hr, rfl⟩)
    simpa [admitTask, admitMoments, hr] using next

section
variable {w : Conduct} {t : Task}

theorem admitTask_moves (wf : t.WellFormed) (owner : Nat) (a : Action) (r : Round σ δ ν)
    (conduct : ∀ m ∈ admitMoments owner a t r, w.answers m.2) :
    t.Moves w owner (r.admitTask owner a t).1 ∧
      ∀ m ∈ admitMoments owner a t r, t.Moves w owner m.1 ∧ m.2.Proper owner a m.1 := by
  have refreshed : t.Moves w owner t.refresh := .single .refresh
  have wf' := wf.of_shape (Task.shape_refresh t)
  have visit := admitTask_visit wf owner a r
  generalize r.admitTask owner a t = out, admitMoments owner a t r = ms at visit conduct ⊢
  cases visit with
  | idle passed => exact ⟨refreshed, List.forall_mem_nil _⟩
  | crash turn asked =>
    exact ⟨refreshed, List.forall_mem_singleton.mpr
      ⟨refreshed, rfl, rfl, turn.present, turn.cleared, fun _ h => by cases h⟩⟩
  | judge turn compare empty asked =>
    obtain rfl := turn.action_eq
    have judged : Task.Move w owner t.refresh _ := .change turn.found
      (.judge turn.cleared empty (Stage.not_begun_of_accepts_empty turn.accepts empty)
        (.verdict compare (conduct _ (List.mem_singleton_self _))))
    refine ⟨?_, List.forall_mem_singleton.mpr
      ⟨refreshed, rfl, rfl, turn.present, turn.cleared, fun _ h => by cases h⟩⟩
    rw [conclude_task]
    exact (refreshed.tail judged).tail .refresh
  | skip turn gated empty =>
    obtain rfl := turn.action_eq
    have judged : Task.Move w owner t.refresh _ := .change turn.found
      (.judge turn.cleared empty (Stage.not_begun_of_accepts_empty turn.accepts empty) (.nothing gated))
    rw [conclude_task]
    exact ⟨(refreshed.tail judged).tail .refresh, List.forall_mem_nil _⟩
  | halt turn submitted =>
    obtain ⟨moves, later⟩ := submit_moves owner a wf' turn.cleared turn.present r _ conduct
    rw [submitted] at moves
    exact ⟨refreshed.trans moves, fun m hm => ⟨refreshed.trans (later m hm).1, (later m hm).2⟩⟩
  | work turn _ submitted =>
    obtain ⟨moves, later⟩ := submit_moves owner a wf' turn.cleared turn.present r _ conduct
    rw [submitted] at moves
    rw [conclude_task]
    exact ⟨(refreshed.trans moves).tail .refresh,
      fun m hm => ⟨refreshed.trans (later m hm).1, (later m hm).2⟩⟩

/-! ## Induction along a round -/

/-- What holds of no tasks, and is carried over the first task, whether the round goes on after it or stops
there, holds of every round. -/
theorem run_induction {a : Action}
    {R : Nat → Round σ δ ν → List Task → List Moment → List Task × Round σ δ ν × Option Fault → Prop}
    (nil : ∀ owner r, R owner r [] [] ([], r, none))
    (next : ∀ {owner r t ts ms out}, t.WellFormed → (∀ m ∈ ms, owner + 1 ≤ m.request.owner) →
      (r.admitTask owner a t).2.2 = .next → R (owner + 1) (r.admitTask owner a t).2.1 ts ms out →
      R owner r (t :: ts) ((admitMoments owner a t r).map (fun m => ⟨m.1 :: ts, m.2⟩) ++
        ms.map fun m => ⟨(r.admitTask owner a t).1 :: m.tasks, m.request⟩)
        ((r.admitTask owner a t).1 :: out.1, out.2))
    (stop : ∀ {owner r t ts}, t.WellFormed → (r.admitTask owner a t).2.2 ≠ .next →
      R owner r (t :: ts) ((admitMoments owner a t r).map fun m => ⟨m.1 :: ts, m.2⟩)
        ((r.admitTask owner a t).1 :: ts, (r.admitTask owner a t).2.1, (r.admitTask owner a t).2.2.fault?))
    (owner : Nat) (r : Round σ δ ν) {ts : List Task} (wf : ∀ t ∈ ts, t.WellFormed) :
    R owner r ts (r.moments a owner ts) (r.run a owner ts) := by
  suffices both : R owner r ts (r.moments a owner ts) (r.run a owner ts) ∧
      ∀ m ∈ r.moments a owner ts, owner ≤ m.request.owner from both.1
  induction ts generalizing owner r with
  | nil => exact ⟨nil owner r, List.forall_mem_nil _⟩
  | cons t ts ih =>
    obtain ⟨hwf, hwfs⟩ := List.forall_mem_cons.mp wf
    obtain ⟨rest, beyond⟩ := ih (owner + 1) (r.admitTask owner a t).2.1 hwfs
    have going := fun course => next hwf beyond course rest
    have halting := @stop owner r t ts hwf
    have here : ∀ m ∈ (admitMoments owner a t r).map (fun m => (⟨m.1 :: ts, m.2⟩ : Moment)),
        owner ≤ m.request.owner := List.forall_mem_map.mpr fun m hm =>
      Nat.le_of_eq ((admitTask_moves (w := .any) hwf owner a r fun _ _ => trivial).2 m hm).2.owner_eq.symm
    rw [moments, run, List.forall_mem_append]
    generalize r.admitTask owner a t = out at beyond going halting
    obtain ⟨t', r', course⟩ := out
    cases course with
    | next =>
      exact ⟨going rfl, here, List.forall_mem_map.mpr fun m hm => Nat.le_of_succ_le (beyond m hm)⟩
    | closed =>
      rw [List.append_nil]
      exact ⟨halting nofun, here, List.forall_mem_nil _⟩
    | fault f =>
      rw [List.append_nil]
      exact ⟨halting nofun, here, List.forall_mem_nil _⟩

/-- What holds where nothing is done, and is carried over the first task, every round does, however it
ends. -/
theorem run_relates {a : Action}
    {R : Nat → Round σ δ ν → List Task → List Moment → List Task → Round σ δ ν → Prop}
    (still : ∀ owner r ts, R owner r ts [] ts r)
    (cons : ∀ {owner r t ts ms ts' r'}, t.WellFormed → (∀ m ∈ ms, owner + 1 ≤ m.request.owner) →
      R (owner + 1) (r.admitTask owner a t).2.1 ts ms ts' r' →
      R owner r (t :: ts) ((admitMoments owner a t r).map (fun m => ⟨m.1 :: ts, m.2⟩) ++
        ms.map fun m => ⟨(r.admitTask owner a t).1 :: m.tasks, m.request⟩)
        ((r.admitTask owner a t).1 :: ts') r')
    (owner : Nat) (r : Round σ δ ν) {ts : List Task} (wf : ∀ t ∈ ts, t.WellFormed) :
    R owner r ts (r.moments a owner ts) (r.run a owner ts).1 (r.run a owner ts).2.1 := by
  refine run_induction (R := fun owner r ts ms out => R owner r ts ms out.1 out.2.1)
    (fun owner r => still owner r []) (fun hwf beyond _ rest => cons hwf beyond rest) ?_ owner r wf
  intro owner r t ts hwf _
  have alone := @cons owner r t ts _ _ _ hwf (List.forall_mem_nil _) (still _ _ ts)
  rwa [List.map_nil, List.append_nil] at alone

theorem run_evolves (a : Action) (owner : Nat) (r : Round σ δ ν) (ts : List Task)
    (wf : ∀ t ∈ ts, t.WellFormed) (conduct : ∀ m ∈ r.moments a owner ts, w.answers m.request) :
    Evolves w owner ts (r.run a owner ts).1 ∧ ∀ m ∈ r.moments a owner ts,
      Evolves w owner ts m.tasks ∧ ∃ i t, m.tasks[i]? = some t ∧ m.request.Proper (owner + i) a t := by
  refine run_relates (R := fun owner _ ts ms ts' _ => (∀ m ∈ ms, w.answers m.request) →
    Evolves w owner ts ts' ∧ ∀ m ∈ ms, Evolves w owner ts m.tasks ∧
      ∃ i t, m.tasks[i]? = some t ∧ m.request.Proper (owner + i) a t) ?_ ?_ owner r wf conduct
  · exact fun owner _ ts _ => ⟨.refl .., List.forall_mem_nil _⟩
  · intro owner r t ts ms ts' r' hwf _ rest conduct
    rw [List.forall_mem_append, List.forall_mem_map, List.forall_mem_map] at conduct
    obtain ⟨moves, asked⟩ := admitTask_moves hwf owner a r conduct.1
    obtain ⟨others, later⟩ := rest conduct.2
    refine ⟨.cons moves others, List.forall_mem_append.mpr ⟨List.forall_mem_map.mpr fun m hm => ?_,
      List.forall_mem_map.mpr fun m hm => ?_⟩⟩
    · obtain ⟨hmoves, proper⟩ := asked m hm
      exact ⟨.cons hmoves (.refl ..), 0, m.1, rfl, proper⟩
    · obtain ⟨evolves, i, u, hu, proper⟩ := later m hm
      exact ⟨.cons moves evolves, i + 1, u, hu, by rwa [Nat.add_right_comm] at proper⟩

end

end

end Round

end TableMigration
