import TableMigration.Proofs.Alone
import TableMigration.Proofs.Liveness
import TableMigration.Proofs.Snapshots

/-!
# Tasks do not influence each other

While every ceiling is above the number of all units of its action, no tick holds a task back for the
sake of another one. What the reports tell of a task is then a function of the task and of what is
settled of its units, the same in any population, and so also in one of this task alone.
-/

namespace TableMigration

/-! ## A task through a tick -/

namespace Rules

/-- What a task comes to when an action has its turn; nothing is admitted for one without a ceiling. -/
def turn (u : Rules) (gate : Gate) (a : Action) (t : Task) : Task × Trace :=
  if a.isGated = true ∧ gate.ceiling a = none then (t, []) else u.admits a t

def turns (u : Rules) (gate : Gate) : List Action → Task → Task × Trace
  | [], t => (t, [])
  | a :: rest, t =>
    let (t, first) := u.turn gate a t
    let (t, later) := u.turns gate rest t
    (t, first ++ later)

def beat (u : Rules) (gate : Gate) (plan : Plan) (t : Task) : Task × Trace :=
  u.turns gate plan.actions t.refresh

theorem turns_of_ended {u : Rules} {gate : Gate} {t : Task} (wf : t.WellFormed) (ordered : t.InOrder)
    (ended : t.Ended) (refreshed : t.refresh = t) (actions : List Action) :
    u.turns gate actions t = (t, []) := by
  have idle : ∀ a, u.turn gate a t = (t, []) := by
    intro a
    have unready := ended.not_ready wf ordered a
    unfold turn admits
    rw [Round.admitTask_of_not_ready unready, Round.admitMoments_of_not_ready unready, refreshed]
    exact ite_self _
  induction actions with
  | nil => rfl
  | cons a rest ih =>
    rw [turns, idle a]
    dsimp only
    rw [ih]
    rfl

end Rules

theorem Tracked.andThen {f g : Task → Task × Trace} {k : Nat} {ts ts' ts'' : List Task}
    {qs qs' : List (Task × Request)} (h : Tracked (Goes f) k ts qs ts')
    (h' : Tracked (Goes g) k ts' qs' ts'') :
    Tracked (Goes fun t => ((g (f t).1).1, (f t).2 ++ (g (f t).1).2)) k ts (qs ++ qs') ts'' := by
  intro i t at_i
  obtain ⟨t', at_i', first⟩ := h i t at_i
  obtain ⟨t'', at_i'', later⟩ := h' i t' at_i'
  refine ⟨t'', at_i'', ?_⟩
  unfold Goes at first later ⊢
  dsimp only
  rw [concerning_append, trace_append, first, later]

namespace Scheduler

section
variable {σ : Type} {u : Rules} {s s' : Scheduler σ PolicyDispatcher FixedValidator}

/-- The outside keeps to the rules, and no ceiling can be reached. -/
structure Spacious (u : Rules) (s : Scheduler σ PolicyDispatcher FixedValidator) : Prop where
  wellFormed : ∀ t ∈ s.tasks, t.WellFormed
  inOrder : ∀ t ∈ s.tasks, t.InOrder
  keeps : s.outside.Keeps u
  room : ∀ a, a.isGated = true → ∀ c, s.gate.ceiling a = some c → Gate.allUnits a s.tasks < c

theorem Spacious.of_evolves (h : s.Spacious u) (moves : Evolves .any 0 s.tasks s'.tasks)
    (gate : s'.gate = s.gate) (keeps : s'.outside.Keeps u) : s'.Spacious u := by
  have wf := h.wellFormed
  refine ⟨moves.wellFormed wf, moves.inOrder wf h.inOrder, keeps, fun a gated c bounded => ?_⟩
  have units : s'.tasks.map (·.unitsIn a) = s.tasks.map (·.unitsIn a) :=
    moves.map_eq (fun same => Task.unitsIn_of_shape same a) wf
  rw [Gate.allUnits, units]
  exact h.room a gated c (gate ▸ bounded)

theorem Spacious.finish (h : s.Spacious u) (g : Handle) (o : Outcome) : (s.finish g o).1.Spacious u := by
  have moves := finish_evolves (w := .any) s h.wellFormed g o trivial
  refine h.of_evolves moves ?_ ?_
  · rw [finish_eq]
  · rw [finish_eq]
    exact h.keeps

variable [NameStore σ]

theorem Spacious.observe (h : s.Spacious u) (report : Report) : (s.observe report).1.Spacious u :=
  h.of_evolves (observe_evolves s report) rfl h.keeps

theorem Spacious.schedule (h : s.Spacious u) (a : Action) (report : Report) :
    (s.schedule a report).1.Spacious u ∧ (s.schedule a report).2.2 = none := by
  have wf := h.wellFormed
  obtain ⟨keeps, conduct⟩ := (schedule_exchange s wf a report).1.keeps h.keeps
  refine ⟨?_, (schedule_completes_iff s wf a report).mpr conduct⟩
  exact h.of_evolves (schedule_evolves s wf a report fun _ _ => trivial).1 (schedule_gate s a report) keeps

theorem Spacious.schedule_goes (h : s.Spacious u) (a : Action) (report : Report) :
    Tracked (Goes (u.turn s.gate a)) 0 s.tasks (asked 0 (s.scheduleMoments a report))
      (s.schedule a report).1.tasks := by
  have admitted : ∀ window : Window, window.HasRoom (Gate.newUnits a s.tasks) →
      Tracked (Goes (u.admits a)) 0 s.tasks (asked 0 (s.windowMoments a report window))
        (s.admitWith a report window).1.tasks :=
    fun window room => Round.run_goes a 0 _ s.tasks h.wellFormed h.keeps room
  unfold Scheduler.schedule scheduleMoments Gate.admission
  by_cases compare : a.isCompare = true
  · have ungated : u.turn s.gate a = u.admits a := by
      funext t
      exact if_neg fun shut => by simp [Action.isGated, compare] at shut
    rw [if_pos compare, ungated]
    refine admitted .unbounded fun c bounded => ?_
    cases bounded
  · have gated : a.isGated = true := by simp [Action.isGated, compare]
    rw [if_neg compare]
    cases bounded : s.gate.ceiling a with
    | none =>
      refine fun i t at_i => ⟨t, at_i, ?_⟩
      exact if_pos ⟨gated, bounded⟩
    | some c =>
      have open_to_all : u.turn s.gate a = u.admits a := by
        funext t
        exact if_neg fun shut => by simp [bounded] at shut
      have room := h.room a gated c bounded
      have most := Gate.inFlight_add_newUnits_le a s.tasks
      simp only [if_neg (show ¬c ≤ Gate.inFlight a s.tasks by omega)]
      rw [open_to_all]
      refine admitted (.bounded _ c) fun c' same => ?_
      obtain rfl : c = c' := Option.some.inj same
      exact Nat.lt_of_le_of_lt most room

theorem Spacious.scheduleAll_goes (actions : List Action) (h : s.Spacious u) (report : Report) :
    Tracked (Goes (u.turns s.gate actions)) 0 s.tasks (asked 0 (s.scheduleAllMoments report actions))
        (s.scheduleAll report actions).1.tasks ∧
      (s.scheduleAll report actions).1.Spacious u := by
  refine scheduleAll_induction (R := fun s _ actions ms out => s.Spacious u →
    Tracked (Goes (u.turns s.gate actions)) 0 s.tasks (asked 0 ms) out.1.tasks ∧ out.1.Spacious u)
    (fun _ _ h => ⟨fun i t at_i => ⟨t, at_i, rfl⟩, h⟩) ?_ ?_ actions h.wellFormed report h
  · intro s a rest report ms out _ _ later h
    obtain ⟨goes, spacious⟩ := later (h.schedule a report).1
    rw [schedule_gate] at goes
    rw [asked_append]
    exact ⟨(h.schedule_goes a report).andThen goes, spacious⟩
  · intro s a rest report f _ fault h
    cases fault.symm.trans (h.schedule a report).2

theorem Spacious.tick_goes (h : s.Spacious u) :
    Tracked (Goes (u.beat s.gate s.plan)) 0 s.tasks (asked 0 (s.moments .tick)) s.tick.1.tasks ∧
      s.tick.1.Spacious u := by
  have seen : Tracked (Goes fun t => (t.refresh, [])) 0 s.tasks [] (s.observe .empty).1.tasks := by
    intro i t at_i
    refine ⟨t.refresh, ?_, rfl⟩
    rw [observe_tasks, List.getElem?_map, at_i, Option.map_some]
  have spacious := h.observe .empty
  rcases s.tick_cases with ⟨all, hm, he⟩ | ⟨s', result, done, hm, he⟩
  · -- the tick ends early, but a task that has ended would come out of its turns as it is
    rw [he, hm]
    refine ⟨fun i t at_i => ?_, spacious⟩
    obtain ⟨t', at_i', same⟩ := seen i t at_i
    obtain rfl : t.refresh = t' := congrArg Prod.fst same
    refine ⟨t.refresh, at_i', ?_⟩
    have mem := List.mem_of_getElem? at_i'
    have ended : t.refresh.Ended := by
      unfold Task.Ended
      rw [Task.refresh_refresh]
      exact all _ mem
    exact Rules.turns_of_ended (spacious.wellFormed _ mem) (spacious.inOrder _ mem) ended t.refresh_refresh _
  · obtain ⟨later, spacious'⟩ := spacious.scheduleAll_goes s.plan.actions (s.observe .empty).2.1
    rw [done] at later spacious'
    rw [he, hm]
    exact ⟨seen.andThen later, spacious'⟩

theorem Spacious.tick_completes (h : s.Spacious u) : ∃ report, s.tick.2 = .ok report := by
  rw [tick_completes_iff s h.wellFormed]
  exact ((perform_exchange s h.wellFormed .tick).keeps h.keeps).2

end

end Scheduler

/-! ## What reports tell of a task -/

/-- What a report tells of tables: what is shown of them, what was admitted and what was judged. -/
structure View where
  snapshots : List Snapshot
  admitted : List UnitKey
  validations : List (String × Bool)
  deriving DecidableEq, Repr

def Report.view (r : Report) : View :=
  ⟨r.snapshot, r.admitted, r.validations⟩

def View.of (v : View) (name : String) : View :=
  ⟨v.snapshots.filter (·.name == name), v.admitted.filter (·.task == name),
    v.validations.filter (·.1 == name)⟩

def View.single (p : Task × Trace) : View :=
  ⟨[p.1.snapshot], p.2.filterMap (·.1), p.2.filterMap (·.2)⟩

theorem filter_key {α β : Type} [DecidableEq β] {f : α → β} {xs : List α} (distinct : (xs.map f).Nodup)
    {x : α} (hx : x ∈ xs) : xs.filter (fun y => f y == f x) = [x] := by
  induction xs with
  | nil => cases hx
  | cons y ys ih =>
    obtain ⟨absent, rest⟩ := List.nodup_cons.mp distinct
    rcases List.mem_cons.mp hx with rfl | hx
    · have others : ys.filter (fun y => f y == f x) = [] := by
        rw [List.filter_eq_nil_iff]
        intro z hz same
        exact absent (beq_iff_eq.mp same ▸ List.mem_map_of_mem hz)
      rw [List.filter_cons, if_pos (beq_self_eq_true (f x)), others]
    · have other : ¬(f y == f x) = true := by
        intro same
        exact absent (beq_iff_eq.mp same ▸ List.mem_map_of_mem hx)
      rw [List.filter_cons, if_neg other, ih rest hx]

theorem filter_filterMap_of {α β : Type} {f : α → Option β} {p : β → Bool} {g : α → Bool} {xs : List α}
    (h : ∀ x ∈ xs, ∀ y, f x = some y → p y = g x) :
    (xs.filterMap f).filter p = (xs.filter g).filterMap f := by
  rw [List.filter_filterMap, List.filterMap_filter]
  apply List.filterMap_congr
  intro x hx
  cases found : f x with
  | none => exact (ite_self _).symm
  | some y => rw [Option.filter_some, h x hx y found]

namespace Request

theorem handle_of_admission {q : Request} {k : UnitKey} (h : q.admission? = some k) :
    ∃ g, q.handle? = some g ∧ g.toUnitKey = k := by
  match q, h with
  | .submit g .running, h => exact ⟨g, rfl, Option.some.inj h⟩
  | .submit g (.finished o), h => exact ⟨g, rfl, Option.some.inj h⟩

theorem name_of_judgement {q : Request} {t : Task} {p : String × Bool} (h : q.judgement? t = some p) :
    p.1 = t.name := by
  match q, h with
  | .validate owner a .passed, h => rw [← Option.some.inj h]
  | .validate owner a .rejected, h => rw [← Option.some.inj h]

end Request

namespace Scheduler

section
variable {σ δ ν : Type} [NameStore σ] [Dispatcher δ] [Validator ν] {s s' : Scheduler σ δ ν}
  (wf : ∀ t ∈ s.tasks, t.WellFormed) {report : Report} (ticked : s.tick = (s', .ok report))
include wf ticked

theorem tick_evolves : Evolves .any 0 s.tasks s'.tasks := by
  obtain rfl : s.perform .tick = s' := congrArg Prod.fst ticked
  exact (perform_evolves s wf .tick fun _ _ => trivial).1

theorem tick_view : report.view = ⟨s'.snapshot, (trace (asked 0 (s.moments .tick))).filterMap (·.1),
    (trace (asked 0 (s.moments .tick))).filterMap (·.2)⟩ := by
  have accounts := tick_accounts wf ticked
  have admitted := accounts.admitted
  have validations := accounts.validations
  unfold Report.view trace
  rw [tick_snapshot ticked, admitted, validations, List.filterMap_map, List.filterMap_map]
  rfl

theorem tick_view_of (distinct : (s.tasks.map (·.name)).Nodup) {i : Nat} {t : Task}
    (at_i : s'.tasks[i]? = some t) :
    report.view.of t.name = .single (t, trace (concerning i (asked 0 (s.moments .tick)))) := by
  have names := (tick_evolves wf ticked).names_eq
  have at_name : (s.tasks.map (·.name))[i]? = some t.name := by
    rw [← names, List.getElem?_map, at_i, Option.map_some]
  obtain ⟨lt, -⟩ := List.getElem?_eq_some_iff.mp at_name
  have named := s.asked_named wf .tick
  have mine : ∀ q ∈ asked 0 (s.moments .tick), (q.1.name == t.name) = (q.2.owner == i) := by
    intro q hq
    have at_q := (named q hq).1
    rw [Bool.eq_iff_iff, beq_iff_eq, beq_iff_eq]
    constructor
    · intro same
      refine ((List.getElem?_inj lt distinct).mp ?_).symm
      rw [at_name, at_q, same]
    · rintro rfl
      exact Option.some.inj (at_q.symm.trans at_name)
  rw [tick_view wf ticked]
  unfold View.of View.single trace concerning
  rw [List.filterMap_map, List.filterMap_map, List.filterMap_map, List.filterMap_map]
  refine congr (congr (congrArg View.mk ?_) ?_) ?_
  · have shown : (s'.snapshot.map Snapshot.name).Nodup := by
      rw [← names] at distinct
      rwa [snapshot, List.map_map]
    exact filter_key shown (List.mem_map_of_mem (List.mem_of_getElem? at_i))
  · refine filter_filterMap_of fun q hq k admitted => ?_
    obtain ⟨g, handle, rfl⟩ := Request.handle_of_admission admitted
    rw [(named q hq).2 g handle]
    exact mine q hq
  · refine filter_filterMap_of fun q hq p judged => ?_
    rw [Request.name_of_judgement judged]
    exact mine q hq

theorem tick_view_alone (single : s.tasks.length = 1) {t : Task} (at_first : s'.tasks[0]? = some t) :
    report.view = .single (t, trace (concerning 0 (asked 0 (s.moments .tick)))) := by
  have mine : ∀ q ∈ asked 0 (s.moments .tick), q.2.owner = 0 := by
    intro q hq
    have at_q := (s.asked_named wf .tick q hq).1
    obtain ⟨lt, -⟩ := List.getElem?_eq_some_iff.mp at_q
    rw [List.length_map, single] at lt
    omega
  obtain ⟨t', alone⟩ := List.length_eq_one_iff.mp ((tick_evolves wf ticked).length_eq.trans single)
  rw [alone] at at_first
  obtain rfl : t' = t := Option.some.inj at_first
  rw [tick_view wf ticked, concerning_eq_self mine, snapshot, alone]
  rfl

end

/-! ## Runs -/

inductive Event
  | tick
  | finish (h : Handle) (o : Outcome)

/-- What happens to the task at position `i`, when it is the only one. -/
def Event.own (i : Nat) : Event → Option Event
  | tick => some .tick
  | finish h o => if h.owner = i then some (.finish { h with owner := 0 } o) else none

def play {σ δ ν : Type} [NameStore σ] [Dispatcher δ] [Validator ν] (s : Scheduler σ δ ν) :
    List Event → List (Except Fault Report)
  | [] => []
  | .tick :: es => s.tick.2 :: s.tick.1.play es
  | .finish h o :: es => (s.finish h o).1.play es

end Scheduler

open Scheduler (Event)

def Rules.play (u : Rules) (gate : Gate) (plan : Plan) (i : Nat) (t : Task) : List Event → List View
  | [] => []
  | .tick :: es => .single (u.beat gate plan t) :: u.play gate plan i (u.beat gate plan t).1 es
  | .finish h o :: es =>
    u.play gate plan i (if h.owner = i then (t.finish h.action h.unit o).1 else t) es

theorem Rules.play_own (u : Rules) (gate : Gate) (plan : Plan) (i : Nat) (t : Task) (es : List Event) :
    u.play gate plan 0 t (es.filterMap (·.own i)) = u.play gate plan i t es := by
  induction es generalizing t with
  | nil => rfl
  | cons e es ih =>
    cases e with
    | tick => exact congrArg (_ :: ·) (ih _)
    | finish h o =>
      rw [play]
      by_cases mine : h.owner = i
      · have kept : (Event.finish h o).own i = some (.finish { h with owner := 0 } o) := if_pos mine
        rw [List.filterMap_cons_some kept, play, if_pos rfl, if_pos mine]
        exact ih _
      · have left_out : (Event.finish h o).own i = none := if_neg mine
        rw [List.filterMap_cons_none left_out, if_neg mine]
        exact ih t

namespace Scheduler

variable {σ : Type} [NameStore σ] {u : Rules} {s : Scheduler σ PolicyDispatcher FixedValidator}

/-- In a population of these names `look` takes from a report what is told of position `i`. -/
def Looks (σ : Type) [NameStore σ] (names : List String) (i : Nat) (look : Report → View) : Prop :=
  ∀ {s s' : Scheduler σ PolicyDispatcher FixedValidator} {report : Report} {t : Task},
    (∀ t ∈ s.tasks, t.WellFormed) → s.tasks.map (·.name) = names → s.tick = (s', .ok report) →
    s'.tasks[i]? = some t → look report = .single (t, trace (concerning i (asked 0 (s.moments .tick))))

theorem Spacious.play_look {names : List String} {i : Nat} {look : Report → View}
    (looks : Looks σ names i look) (h : s.Spacious u) (called : s.tasks.map (·.name) = names) {t : Task}
    (at_i : s.tasks[i]? = some t) (es : List Event) :
    (s.play es).map (·.map look) = (u.play s.gate s.plan i t es).map .ok := by
  induction es generalizing s t with
  | nil => rfl
  | cons e es ih =>
    cases e with
    | tick =>
      obtain ⟨goes, spacious⟩ := h.tick_goes
      obtain ⟨report, ticked⟩ := h.tick_completes
      obtain ⟨t', at_i', gone⟩ := goes i t at_i
      rw [Nat.zero_add] at gone
      have told := looks h.wellFormed called (Prod.ext rfl ticked) at_i'
      have step : Reaches .any s s.tick.1 := .single (.call .tick fun _ _ => trivial)
      have called' : s.tick.1.tasks.map (·.name) = names := by
        rw [(step.evolves h.wellFormed).names_eq, called]
      rw [play, Rules.play, List.map_cons, List.map_cons, ticked, gone, Except.map, told,
        ih spacious called' at_i', step.gate_eq, step.plan_eq]
    | finish g o =>
      have moves := finish_evolves (w := .any) s h.wellFormed g o trivial
      have called' : (s.finish g o).1.tasks.map (·.name) = names := by rw [moves.names_eq, called]
      have at_i' : (s.finish g o).1.tasks[i]? =
          some (if g.owner = i then (t.finish g.action g.unit o).1 else t) := by
        rw [finish_eq, List.getElem?_modify, at_i, Option.map_eq_map, Option.map_some]
      have rest := ih (h.finish g o) called' at_i'
      rw [finish_eq] at rest
      rw [play, Rules.play, finish_eq]
      exact rest

omit [NameStore σ] in
theorem new_spacious {tasks : List Task} (fresh : ∀ t ∈ tasks, t.Fresh) {gate : Gate}
    (room : ∀ a, a.isGated = true → ∀ c, gate.ceiling a = some c → Gate.allUnits a tasks < c) (plan : Plan)
    (log : FailoverLog σ) (u : Rules) :
    (Scheduler.new plan tasks gate log (.ofPolicy u.policy : PolicyDispatcher)
      (⟨u.failing, [], []⟩ : FixedValidator)).Spacious u := by
  refine ⟨new_wellFormed fresh _ _ _ _ _, new_inOrder fresh _ _ _ _ _, ⟨rfl, rfl, rfl⟩, fun a gated c bounded => ?_⟩
  have units := new_map_eq (fun same => Task.unitsIn_of_shape same a) plan tasks gate log
    (PolicyDispatcher.ofPolicy u.policy) (⟨u.failing, [], []⟩ : FixedValidator)
  rw [Gate.allUnits, units]
  exact room a gated c bounded

theorem looks_of {names : List String} (distinct : names.Nodup) {i : Nat} {name : String}
    (at_i : names[i]? = some name) : Looks σ names i fun r => r.view.of name := by
  intro s s' report t wf called ticked at_i'
  have named : names[i]? = some t.name := by
    rw [← called, ← (tick_evolves wf ticked).names_eq, List.getElem?_map, at_i', Option.map_some]
  obtain rfl : t.name = name := Option.some.inj (named.symm.trans at_i)
  rw [← called] at distinct
  exact tick_view_of wf ticked distinct at_i'

theorem looks_alone (name : String) : Looks σ [name] 0 Report.view := by
  intro s s' report t wf called ticked at_first
  have single : s.tasks.length = 1 := by rw [← List.length_map (·.name), called, List.length_singleton]
  exact tick_view_alone wf ticked single at_first

/-- While no ceiling can be reached and nothing is refused, all ticks of a run give reports, and what they
tell of a task is what those of the run over this task alone do, with the same units of it settled
between the same ticks. -/
theorem tasks_independent {tasks : List Task} (fresh : ∀ t ∈ tasks, t.Fresh)
    (distinct : (tasks.map (·.name)).Nodup) {gate : Gate}
    (room : ∀ a, a.isGated = true → ∀ c, gate.ceiling a = some c → Gate.allUnits a tasks < c)
    {policy : Policy} (willing : policy.refuses = []) {plan : Plan} {log : FailoverLog σ}
    {failing : List String} {i : Nat} {t : Task} (at_i : tasks[i]? = some t) (es : List Event) :
    ∃ views : List View,
      ((new plan tasks gate log (.ofPolicy policy : PolicyDispatcher)
          (⟨failing, [], []⟩ : FixedValidator)).play es).map (·.map (·.view.of t.name)) =
        views.map .ok ∧
      ((new plan [t] gate log (.ofPolicy policy : PolicyDispatcher)
          (⟨failing, [], []⟩ : FixedValidator)).play (es.filterMap (·.own i))).map (·.map (·.view)) =
        views.map .ok := by
  let u : Rules := ⟨policy, failing, willing⟩
  -- the task as both runs begin with it: as it was made, or as a former run left it
  obtain ⟨t₀, begin_with⟩ : ∃ t₀, (if log.isFinished t.name then t.assumeSucceeded else t) = t₀ := ⟨_, rfl⟩
  have among : (new plan tasks gate log (.ofPolicy policy : PolicyDispatcher)
      (⟨failing, [], []⟩ : FixedValidator)).tasks[i]? = some t₀ := by
    rw [new, List.getElem?_map, at_i, Option.map_some, begin_with]
  have alone : (new plan [t] gate log (.ofPolicy policy : PolicyDispatcher)
      (⟨failing, [], []⟩ : FixedValidator)).tasks[0]? = some t₀ := by
    rw [new, List.map_singleton, begin_with]
    rfl
  have own_room : ∀ a, a.isGated = true → ∀ c, gate.ceiling a = some c → Gate.allUnits a [t] < c := by
    intro a gated c bounded
    have part := Gate.unitsIn_le_allUnits a (List.mem_of_getElem? at_i)
    exact Nat.lt_of_le_of_lt part (room a gated c bounded)
  refine ⟨u.play gate plan i t₀ es, ?_, ?_⟩
  · have named : (tasks.map (·.name))[i]? = some t.name := by
      rw [List.getElem?_map, at_i, Option.map_some]
    exact (new_spacious fresh room plan log u).play_look (looks_of distinct named) (new_names ..) among es
  · have fresh_alone : ∀ t' ∈ [t], t'.Fresh :=
      List.forall_mem_singleton.mpr (fresh t (List.mem_of_getElem? at_i))
    rw [← u.play_own]
    exact (new_spacious fresh_alone own_room plan log u).play_look (looks_alone t.name) (new_names ..) alone _

end Scheduler

namespace TwoTables

def other : Task :=
  OneSlot.second

def start (tasks : List Task) : Scheduler MemoryStore PolicyDispatcher FixedValidator :=
  .new OneTable.plan tasks (.uniform OneTable.plan 5) (.openOn ⟨[]⟩) (.ofPolicy ⟨.hold, .empty, [], []⟩)
    ⟨["db.u"], [], []⟩

def events : List Event :=
  [.tick, .finish (OneTable.unit "p=1") .succeeded, .finish ⟨⟨"db.u", .createTable, "p=1"⟩, 1⟩ .failed, .tick,
    .finish (OneTable.unit "p=2") .succeeded, .tick]

end TwoTables

namespace Scheduler

theorem twoTables_independent : ∃ views : List View,
    ((TwoTables.start [OneTable.task, TwoTables.other]).play TwoTables.events).map
      (·.map (·.view.of "db.t")) = views.map .ok ∧
    ((TwoTables.start [OneTable.task]).play (TwoTables.events.filterMap (·.own 0))).map (·.map (·.view)) =
      views.map .ok := by
  have few : ∀ a, Gate.allUnits a [OneTable.task, TwoTables.other] < 5 := by
    intro a
    cases a <;> decide
  have room : ∀ a, a.isGated = true → ∀ c, (Gate.uniform OneTable.plan 5).ceiling a = some c →
      Gate.allUnits a [OneTable.task, TwoTables.other] < c := by
    intro a _ c bounded
    obtain ⟨-, same⟩ := Option.ite_none_right_eq_some.mp bounded
    exact Option.some.inj same ▸ few a
  exact tasks_independent OneSlot.tasks_fresh (by decide) room rfl (i := 0) rfl TwoTables.events

end Scheduler

end TableMigration
