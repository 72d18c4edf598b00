import Mathlib.Algebra.Ring.Nat
import TableMigration.Proofs.Policies
import TableMigration.Proofs.Turns

/-!
# A task by itself

Let nothing be refused and let every verdict be given by fixed rules. What comes of admitting a task is
then a function of the task, as long as the window is open, and it stays open for all while its ceiling
is above the number of all units of the action. A round is therefore the same function applied to each
of its tasks.
-/

namespace TableMigration

/-- Rules by which units are dispatched and tables judged, under which nothing is refused. -/
structure Rules where
  policy : Policy
  failing : List String
  willing : policy.refuses = []

/-- What requests come to in a report: units admitted and verdicts given, in order. -/
abbrev Trace := List (Option UnitKey × Option (String × Bool))

def trace (qs : List (Task × Request)) : Trace :=
  qs.map fun q => (q.2.admission?, q.2.judgement? q.1)

theorem trace_append (qs qs' : List (Task × Request)) : trace (qs ++ qs') = trace qs ++ trace qs' :=
  List.map_append

/-! ## Keeping to rules -/

structure Outside.Keeps (u : Rules) (x : Outside PolicyDispatcher FixedValidator) : Prop where
  policy : x.dispatcher.policy = u.policy
  failing : x.validator.failing = u.failing
  calm : x.validator.crashing = []

theorem Exchange.keeps {u : Rules} {counts : RowCounts} {k : Nat}
    {x y : Outside PolicyDispatcher FixedValidator} {ms : List Moment}
    (exchange : Exchange counts k x ms y) (kept : x.Keeps u) :
    y.Keeps u ∧ ∀ m ∈ ms, Conduct.faultless.answers m.request := by
  induction exchange with
  | nil x => exact ⟨kept, List.forall_mem_nil _⟩
  | @submit _ _ _ _ h _ _ served _ ih =>
    have serves := PolicyDispatcher.submit_serves served
    obtain ⟨kept', later⟩ := ih ⟨serves.policy.trans kept.policy, kept.failing, kept.calm⟩
    refine ⟨kept', List.forall_mem_cons.mpr ⟨?_, later⟩⟩
    dsimp only
    rw [serves.answer, kept.policy, Policy.receipt_of_willing u.willing]
    cases u.policy.completion h <;> trivial
  | @validate x _ _ _ _ t _ _ _ _ judged _ ih =>
    obtain ⟨rfl, rfl⟩ := Prod.mk.inj judged
    obtain ⟨kept', later⟩ := ih ⟨kept.policy, kept.failing, kept.calm⟩
    refine ⟨kept', List.forall_mem_cons.mpr ⟨?_, later⟩⟩
    dsimp only
    rw [FixedValidator.verdict_of_calm kept.calm]
    cases x.validator.failing.contains t.name <;> trivial

/-! ## One task -/

namespace Round

variable {σ τ : Type} {u : Rules}

theorem submitMoments_alike (owner owner' : Nat) (a : Action) (t : Task) {d d' : PolicyDispatcher}
    (same : d.policy = d'.policy) (ids : List String) :
    trace (submitMoments owner a t d ids) = trace (submitMoments owner' a t d' ids) := by
  induction ids generalizing t d d' with
  | nil => rfl
  | cons id ids ih =>
    cases hs : t.start a id with
    | error f =>
      simp only [submitMoments, hs]
    | ok started =>
      cases started with
      | none =>
        simp only [submitMoments, hs]
        exact ih t same
      | some t' =>
        cases served : Dispatcher.submit d ⟨⟨t'.name, a, id⟩, owner⟩ with
        | mk d₁ receipt =>
          obtain ⟨d₂, served', same'⟩ := PolicyDispatcher.served_alike served same owner'
          rw [submitMoments_of_start hs served, submitMoments_of_start hs served']
          cases receipt with
          | refused e => rfl
          | running => exact congrArg (_ :: ·) (ih t' same')
          | finished o => exact congrArg (_ :: ·) (ih (t'.finish a id o).1 same')

theorem submit_alike (owner owner' : Nat) (a : Action) (t : Task)
    (r : Round σ PolicyDispatcher FixedValidator) (r' : Round τ PolicyDispatcher FixedValidator)
    (same : r.dispatcher.policy = r'.dispatcher.policy) (ids : List String) :
    (r.submit owner a t ids).1 = (r'.submit owner' a t ids).1 ∧
      (r.submit owner a t ids).2.2 = (r'.submit owner' a t ids).2.2 := by
  fun_induction Round.submit owner a t r ids generalizing r' with
  | case1 t r => exact ⟨rfl, rfl⟩
  | case2 t r id ids f hs =>
    rw [Round.submit, hs]
    exact ⟨rfl, rfl⟩
  | case3 t r id ids hs ih =>
    rw [Round.submit, hs]
    exact ih r' same
  | case4 t r id ids t' hs h d r₁ e hd =>
    obtain ⟨d', served, -⟩ := PolicyDispatcher.served_alike hd same owner'
    simp only [Round.submit, hs, served, and_self]
  | case5 t r id ids t' hs h d r₁ admitted hd ih =>
    obtain ⟨d', served, same'⟩ := PolicyDispatcher.served_alike hd same owner'
    simp only [Round.submit, hs, served]
    exact ih _ same'
  | case6 t r id ids t' hs h d r₁ admitted o hd ih =>
    obtain ⟨d', served, same'⟩ := PolicyDispatcher.served_alike hd same owner'
    simp only [Round.submit, hs, served]
    exact ih _ same'

variable [NameStore σ] [NameStore τ]

theorem settle_task {δ ν : Type} (r : Round σ δ ν) (t : Task) : (r.settle t).1 = t.refresh :=
  settleTask_task t r.log r.report

theorem validate_task {δ ν : Type} [Validator ν] {r : Round σ δ ν} {t : Task} {v : ν} {passed : Bool}
    (judged : Validator.validate r.validator r.counts t = (v, .ofBool passed)) (a : Action) :
    (r.validate a t).1 = match t.setProgress a (if passed then .succeeded else .failed) with
      | .error _ => t
      | .ok t' => t'.refresh := by
  unfold validate
  rw [judged]
  cases passed with
  | true =>
    dsimp only [Verdict.ofBool]
    cases t.setProgress a (if true = true then .succeeded else .failed) with
    | error f => rfl
    | ok t' => exact settle_task _ t'
  | false =>
    dsimp only [Verdict.ofBool]
    cases t.setProgress a (if false = true then .succeeded else .failed) with
    | error f => rfl
    | ok t' => exact settle_task _ t'

theorem skip_task {δ ν : Type} (r : Round σ δ ν) (a : Action) (t : Task) : (r.skip a t).1 =
    match t.setProgress a .succeeded with
    | .error _ => t
    | .ok t' => t'.refresh := by
  unfold skip
  cases t.setProgress a .succeeded with
  | error f => rfl
  | ok t' => exact settle_task _ t'

section
variable {r : Round σ PolicyDispatcher FixedValidator} {r' : Round τ PolicyDispatcher FixedValidator}
  (kept : r.outside.Keeps u) (kept' : r'.outside.Keeps u)
include kept kept'

theorem validate_alike (owner owner' : Nat) (a : Action) (t : Task) :
    (r.validate a t).1 = (r'.validate a t).1 ∧
    trace [(t, .validate owner a (Validator.validate r.validator r.counts t).2)] =
      trace [(t, .validate owner' a (Validator.validate r'.validator r'.counts t).2)] := by
  have judges : ∀ (v : FixedValidator) (counts : RowCounts), v.failing = u.failing → v.crashing = [] →
      Validator.validate v counts t =
        ((Validator.validate v counts t).1, .ofBool (!u.failing.contains t.name)) :=
    fun v counts failing calm => Prod.ext rfl (failing ▸ FixedValidator.verdict_of_calm calm t)
  have judged := judges r.validator r.counts kept.failing kept.calm
  have judged' := judges r'.validator r'.counts kept'.failing kept'.calm
  rw [validate_task judged, validate_task judged', judged, judged']
  exact ⟨rfl, by cases u.failing.contains t.name <;> rfl⟩

theorem admitTask_alike (isOpen : r.window.isOpen = true) (isOpen' : r'.window.isOpen = true)
    (owner owner' : Nat) (a : Action) (t : Task) :
    (r.admitTask owner a t).1 = (r'.admitTask owner' a t).1 ∧
      trace (admitMoments owner a t r) = trace (admitMoments owner' a t r') := by
  have policy : r.dispatcher.policy = r'.dispatcher.policy := kept.policy.trans kept'.policy.symm
  by_cases ready : t.refresh.isReady a = true
  · simp only [admitTask, admitMoments, ready, isOpen, isOpen', Bool.not_true, Bool.or_self,
      Bool.false_eq_true, if_false]
    by_cases compare : a.isCompare = true
    · simp only [compare, if_true]
      exact validate_alike kept kept' owner owner' a t.refresh
    · rw [Bool.not_eq_true] at compare
      simp only [compare, Bool.false_eq_true, if_false]
      cases t.refresh.stage? a with
      | none => exact ⟨rfl, rfl⟩
      | some s =>
        refine ⟨?_, submitMoments_alike owner owner' a t.refresh policy s.newIds⟩
        by_cases units : s.hasUnits = true
        · simp only [units, Bool.not_true, Bool.false_eq_true, if_false]
          obtain ⟨task, fault⟩ := submit_alike owner owner' a t.refresh r r' policy s.newIds
          generalize r.submit owner a t.refresh s.newIds = out,
            r'.submit owner' a t.refresh s.newIds = out' at task fault
          obtain ⟨t₁, r₁, f⟩ := out
          obtain ⟨t₂, r₂, f'⟩ := out'
          obtain rfl : t₁ = t₂ := task
          obtain rfl : f = f' := fault
          cases f with
          | some f => rfl
          | none => exact (settle_task r₁ t₁).trans (settle_task r₂ t₁).symm
        · rw [Bool.not_eq_true] at units
          simp only [units, Bool.not_false, if_true]
          rw [skip_task, skip_task]
  · rw [Bool.not_eq_true] at ready
    rw [admitTask_of_not_ready ready, admitTask_of_not_ready ready, admitMoments_of_not_ready ready,
      admitMoments_of_not_ready ready]
    exact ⟨rfl, rfl⟩

end

end Round

/-! ## Room in a window -/

/-- Even with `n` more units the window stays open. -/
def Window.HasRoom (w : Window) (n : Nat) : Prop :=
  ∀ c, w.ceiling = some c → w.inFlight + n < c

theorem Window.HasRoom.isOpen {w : Window} {n : Nat} (room : w.HasRoom n) : w.isOpen = true := by
  unfold Window.isOpen
  cases bounded : w.ceiling with
  | none => rfl
  | some c =>
    have := room c bounded
    exact decide_eq_true (by omega)

theorem Window.HasRoom.of_le {w w' : Window} {n n' : Nat} (room : w.HasRoom n)
    (ceiling : w'.ceiling = w.ceiling) (le : w'.inFlight + n' ≤ w.inFlight + n) : w'.HasRoom n' := by
  intro c bounded
  rw [ceiling] at bounded
  exact Nat.lt_of_le_of_lt le (room c bounded)

namespace Task

def newIn (t : Task) (a : Action) : Nat :=
  ((t.stage? a).map (·.newIds.length)).getD 0

theorem newIn_refresh (t : Task) (a : Action) : t.refresh.newIn a = t.newIn a := by
  unfold newIn
  rw [map_stage?_refresh _ fun _ => rfl]

theorem newIn_of_mem {t : Task} (wf : t.WellFormed) {s : Stage} (hs : s ∈ t.stages) :
    t.newIn s.action = s.newIds.length := by
  unfold newIn
  rw [wf.stage?_of_mem hs]
  rfl

theorem runningIn_add_newIn_le (t : Task) (a : Action) : t.runningIn a + t.newIn a ≤ t.unitsIn a := by
  unfold runningIn newIn unitsIn
  cases t.stage? a with
  | none => exact Nat.le_refl _
  | some s =>
    have fewer : s.units.countP (·.progress == .new) ≤ s.units.countP (!·.progress == .running) := by
      refine List.countP_mono_left fun u _ new => ?_
      rw [beq_iff_eq.mp new]
      rfl
    have split := s.units.length_eq_countP_add_countP (·.progress == .running)
    have waiting : s.newIds.length = s.units.countP (·.progress == .new) := by
      rw [Stage.newIds, List.length_map, List.countP_eq_length_filter]
    simp only [Option.map_some, Option.getD_some, Stage.runningCount, waiting]
    simp only [Bool.not_eq_true, Bool.decide_eq_false] at split
    omega

end Task

namespace Gate

def allUnits (a : Action) (ts : List Task) : Nat :=
  (ts.map (·.unitsIn a)).sum

theorem unitsIn_le_allUnits (a : Action) {t : Task} {ts : List Task} (ht : t ∈ ts) :
    t.unitsIn a ≤ allUnits a ts := by
  obtain ⟨pre, post, rfl⟩ := List.append_of_mem ht
  unfold allUnits
  rw [List.map_append, List.sum_append, List.map_cons, List.sum_cons]
  omega

def newUnits (a : Action) (ts : List Task) : Nat :=
  (ts.map (·.newIn a)).sum

theorem inFlight_add_newUnits_le (a : Action) (ts : List Task) :
    inFlight a ts + newUnits a ts ≤ allUnits a ts := by
  unfold newUnits allUnits
  induction ts with
  | nil => exact Nat.le_refl _
  | cons t ts ih =>
    have here := t.runningIn_add_newIn_le a
    rw [inFlight_cons, List.map_cons, List.sum_cons, List.map_cons, List.sum_cons]
    omega

end Gate

namespace Round

variable {σ δ ν : Type}

theorem submit_window [Dispatcher δ] (owner : Nat) (a : Action) (t : Task) (r : Round σ δ ν)
    (ids : List String) :
    (r.submit owner a t ids).2.1.window.inFlight ≤ r.window.inFlight + ids.length := by
  fun_induction Round.submit owner a t r ids with
  | case1 t r => exact Nat.le_refl _
  | case2 t r id ids f hs => exact Nat.le_add_right ..
  | case3 t r id ids hs ih =>
    rw [List.length_cons]
    omega
  | case4 t r id ids t' hs h d r' e hd => exact Nat.le_add_right ..
  | case5 t r id ids t' hs h d r' admitted hd ih =>
    have more : admitted.window.inFlight = r.window.inFlight + 1 := rfl
    rw [List.length_cons]
    omega
  | case6 t r id ids t' hs h d r' admitted o hd ih =>
    have more : admitted.window.inFlight = r.window.inFlight + 1 := rfl
    rw [List.length_cons]
    omega

variable [NameStore σ] [Dispatcher δ] [Validator ν]

theorem admitTask_room {t : Task} (wf : t.WellFormed) (owner : Nat) {a : Action} {r : Round σ δ ν} {n : Nat}
    (room : r.window.HasRoom (t.newIn a + n)) : (r.admitTask owner a t).2.1.window.HasRoom n := by
  have wf' := wf.of_shape (Task.shape_refresh t)
  have kept : r.window.HasRoom n := room.of_le rfl (by omega)
  rw [← t.newIn_refresh a] at room
  have taken : ∀ {s : Stage}, r.Turn a t.refresh s →
      (r.submit owner a t.refresh s.newIds).2.1.window.HasRoom n := by
    intro s turn
    have most := submit_window owner a t.refresh r s.newIds
    have waiting := Task.newIn_of_mem wf' turn.found
    rw [turn.action_eq] at waiting
    exact room.of_le (submit_frame owner a t.refresh r s.newIds).ceiling (by omega)
  have visit := admitTask_visit wf owner a r
  generalize r.admitTask owner a t = out, admitMoments owner a t r = ms at visit ⊢
  cases visit with
  | idle passed => exact kept
  | crash turn asked => exact kept
  | judge turn compare empty asked => exact kept
  | skip turn gated empty => exact kept
  | @halt t' r' f s turn submitted =>
    have left := taken turn
    rwa [submitted] at left
  | @work t' r' s turn _ submitted =>
    have left := taken turn
    rwa [submitted] at left

end Round

/-! ## A round, task by task -/

namespace Rules

/-- An open window, the rules, and nothing else. -/
def round (u : Rules) : Round MemoryStore PolicyDispatcher FixedValidator :=
  ⟨.unbounded, .openOn ⟨[]⟩, .ofPolicy u.policy, ⟨u.failing, [], []⟩, .empty, [], .empty⟩

/-- What a task comes to when it is admitted for `a` by itself, with the trace of that. -/
def admits (u : Rules) (a : Action) (t : Task) : Task × Trace :=
  ((u.round.admitTask 0 a t).1, trace (Round.admitMoments 0 a t u.round))

end Rules

def Goes (f : Task → Task × Trace) (_owner : Nat) (t : Task) (qs : List (Task × Request)) (t' : Task) :
    Prop :=
  f t = (t', trace qs)

namespace Round

variable {σ : Type} [NameStore σ] {u : Rules} {r : Round σ PolicyDispatcher FixedValidator}

theorem admitTask_goes (kept : r.outside.Keeps u) (isOpen : r.window.isOpen = true) (owner : Nat)
    (a : Action) (t : Task) :
    Goes (u.admits a) owner t (admitMoments owner a t r) (r.admitTask owner a t).1 := by
  obtain ⟨task, asked⟩ := admitTask_alike (r := u.round) ⟨rfl, rfl, rfl⟩ kept rfl isOpen 0 owner a t
  exact Prod.ext task asked

theorem admitTask_next {t : Task} (wf : t.WellFormed) (kept : r.outside.Keeps u)
    (isOpen : r.window.isOpen = true) (owner : Nat) (a : Action) :
    (r.admitTask owner a t).2.2 = .next ∧ (r.admitTask owner a t).2.1.outside.Keeps u := by
  obtain ⟨kept', conduct⟩ := (admitTask_exchange wf [] owner a r).1.keeps kept
  have completes := (admitTask_completes_iff wf owner a r).mpr fun m hm =>
    conduct ⟨_, m.2⟩ (List.mem_map_of_mem hm)
  refine ⟨?_, kept'⟩
  have visit := admitTask_visit wf owner a r
  generalize r.admitTask owner a t = out, admitMoments owner a t r = ms at visit completes ⊢
  cases visit with
  | idle passed =>
    rcases passed with ⟨-, rfl⟩ | ⟨closed, -⟩
    · rfl
    · rw [isOpen] at closed
      cases closed
  | crash turn asked => exact absurd rfl (completes _)
  | judge turn compare empty asked => rfl
  | skip turn gated empty => rfl
  | halt turn submitted => exact absurd rfl (completes _)
  | work turn _ submitted => rfl

theorem run_goes (a : Action) (owner : Nat) (r : Round σ PolicyDispatcher FixedValidator) (ts : List Task)
    (wf : ∀ t ∈ ts, t.WellFormed) (kept : r.outside.Keeps u)
    (room : r.window.HasRoom (Gate.newUnits a ts)) :
    Tracked (Goes (u.admits a)) owner ts (asked owner (r.moments a owner ts)) (r.run a owner ts).1 := by
  refine run_induction (R := fun owner r ts ms out => r.outside.Keeps u → r.window.HasRoom (Gate.newUnits a ts) →
    Tracked (Goes (u.admits a)) owner ts (asked owner ms) out.1) ?_ ?_ ?_ owner r wf kept room
  · exact fun _ _ _ _ i t at_i => nomatch at_i
  · intro owner r t ts ms out hwf beyond _ rest kept room
    have later := rest (admitTask_next hwf kept room.isOpen owner a).2 (admitTask_room hwf owner room)
    rw [asked_cons a owner r hwf beyond]
    exact .cons (admitTask_goes kept room.isOpen owner a t) (owner_of_mem_admitMoments a owner r hwf) later
      (owner_le_of_mem_asked beyond)
  · exact fun hwf course kept room => absurd (admitTask_next hwf kept room.isOpen _ a).1 course

end Round

end TableMigration
