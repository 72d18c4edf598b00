import TableMigration.Proofs.Ceiling
import TableMigration.Proofs.Faultless

/-!
# Whose turn it is

Let all tasks ahead of a task have ended, and all stages ahead of a stage of it be done. Then it is
the turn of this stage: the task is ready for its action unless the stage has begun, no task ahead
uses up the window, and no other action takes away its room under the ceiling. A tick without
faults therefore leaves the stage begun.
-/

namespace TableMigration

namespace Stage

instance (s : Stage) : Decidable s.Begun :=
  inferInstanceAs (Decidable (_ ∨ _))

theorem begun_setUnit {s : Stage} (nodup : s.ids.Nodup) {id : String} {p q : Progress}
    (hp : s.unitProgress? id = some p) (hq : q ≠ .new) : (s.setUnit id q).Begun := by
  obtain ⟨us, vs, -, set⟩ := setUnit_split nodup hp
  refine Or.inl ⟨⟨id, q⟩, ?_, hq⟩
  rw [set]
  simp

theorem Change.begun {w : Conduct} {owner : Nat} {cleared : Prop} {s s' : Stage}
    (ch : s.Change w owner cleared s') (nodup : s.ids.Nodup) : s'.Begun := by
  cases ch with
  | start _ new => exact begun_setUnit nodup new (by decide)
  | @settle _ o running _ => exact begun_setUnit nodup running (by cases o <;> decide)
  | judge _ empty _ decides =>
    refine Or.inr ⟨empty, fun new => ?_⟩
    rcases decides.isTerminal with rfl | rfl <;> cases new

theorem accepts_of_not_begun {s : Stage} (h : ¬s.Begun) : s.refresh.acceptsWork = true := by
  have new := liveProgress_eq_new_iff.mpr h
  rw [acceptsWork, refresh_progress, new]
  by_cases empty : s.units = []
  · simp [hasUnits, empty, Progress.isTerminal]
  · obtain ⟨u, hu⟩ := List.exists_mem_of_ne_nil _ empty
    have waits : u.progress = .new := by
      by_contra ne
      exact h (Or.inl ⟨u, hu, ne⟩)
    have waiting : s.refresh.hasWaiting = true := List.any_eq_true.mpr ⟨u, hu, by rw [waits]; rfl⟩
    simp [hasUnits, empty, waiting, Progress.isTerminal]

theorem begun_of_not_waiting {s : Stage} (nonempty : s.units ≠ []) (h : s.newIds = []) : s.Begun := by
  obtain ⟨u, hu⟩ := List.exists_mem_of_ne_nil _ nonempty
  exact Or.inl ⟨u, hu, newIds_eq_nil_iff.mp h u hu⟩

end Stage

namespace Task

/-! ## Stages that have begun -/

def BegunIn (t : Task) (a : Action) : Prop :=
  ∃ s ∈ t.stages, s.action = a ∧ s.Begun

instance (t : Task) (a : Action) : Decidable (t.BegunIn a) :=
  inferInstanceAs (Decidable (∃ s ∈ t.stages, s.action = a ∧ s.Begun))

theorem begunIn_iff {t : Task} {a : Action} : t.BegunIn a ↔
    ∃ p, p ≠ .new ∧ (a, p) ∈ t.stages.map fun s => (s.action, s.liveProgress) := by
  constructor
  · rintro ⟨s, hs, rfl, begun⟩
    refine ⟨s.liveProgress, fun new => ?_, List.mem_map_of_mem hs⟩
    exact Stage.liveProgress_eq_new_iff.mp new begun
  · rintro ⟨p, ne, hm⟩
    obtain ⟨s, hs, he⟩ := List.mem_map.mp hm
    obtain ⟨rfl, rfl⟩ := Prod.mk.inj he
    refine ⟨s, hs, rfl, ?_⟩
    by_contra idle
    exact ne (Stage.liveProgress_eq_new_iff.mpr idle)

theorem BegunIn.refresh {t : Task} {a : Action} (h : t.BegunIn a) : t.refresh.BegunIn a := by
  rw [begunIn_iff] at h ⊢
  rwa [Task.refresh, map_refreshStages _ fun s => by rw [Stage.refresh_liveProgress]; rfl]

section
variable {w : Conduct} {owner : Nat} {t t' : Task} (wf : t.WellFormed)
include wf

theorem Move.begunIn (move : Move w owner t t') {a : Action} (h : t.BegunIn a) : t'.BegunIn a := by
  cases move with
  | refresh => exact h.refresh
  | @change s s' found ch =>
    obtain ⟨b, hb, rfl, begun⟩ := h
    by_cases ha : b.action = s.action
    · exact ⟨s', mem_replace_self found ch.action_eq, ch.action_eq.trans ha.symm,
        ch.begun (wf.stages s found).nodup⟩
    · exact ⟨b, mem_replace_of_ne hb (ch.action_eq ▸ ha), rfl, begun⟩

theorem Moves.begunIn (moves : Moves w owner t t') {a : Action} (h : t.BegunIn a) : t'.BegunIn a :=
  moves.keeps wf (fun wf move => move.begunIn wf) h

theorem Moves.cleared (moves : Moves w owner t t') {a : Action} (h : t.Cleared a) : t'.Cleared a :=
  moves.keeps (P := fun t => t.Cleared a) wf (fun {t _} wf move h => by
    cases move with
    | refresh => exact h.refresh
    | @change s s' found ch =>
      exact forall_mem_replace (fun lt => absurd (h s found (ch.action_eq ▸ lt)) ch.not_done) h) h

end

/-! ## Readiness -/

theorem refreshStages_append {pre : List Stage} (done : ∀ c ∈ pre, c.Done) (rest : List Stage) :
    refreshStages (pre ++ rest) = pre.map Stage.refresh ++ refreshStages rest := by
  induction pre with
  | nil => rfl
  | cons c pre ih =>
    obtain ⟨hc, hpre⟩ := List.forall_mem_cons.mp done
    have live := Stage.liveProgress_eq_succeeded_iff.mpr hc
    rw [List.cons_append, refreshStages_cons, if_neg (by rw [live]; decide), ih hpre]
    rfl

theorem readyIn_append {a : Action} {pre : List Stage} (other : ∀ c ∈ pre, c.action ≠ a)
    (done : ∀ c ∈ pre, c.progress = .succeeded) (rest : List Stage) :
    readyIn a (pre ++ rest) = readyIn a rest := by
  induction pre with
  | nil => rfl
  | cons c pre ih =>
    obtain ⟨ha, hother⟩ := List.forall_mem_cons.mp other
    obtain ⟨hc, hdone⟩ := List.forall_mem_cons.mp done
    rw [List.cons_append, readyIn, if_neg ha, hc, ih hother hdone]
    rfl

section
variable {t : Task} (wf : t.WellFormed) {s : Stage} (hs : s ∈ t.stages) (cleared : t.Cleared s.action)
include wf hs cleared

theorem refresh_split : ∃ pre post rest, t.stages = pre ++ s :: post ∧ (∀ c ∈ pre, c.Done) ∧
    t.refresh.stages = pre.map Stage.refresh ++ s.refresh :: rest := by
  obtain ⟨pre, post, split⟩ := List.append_of_mem hs
  have done := (wf.cleared_iff split).mp cleared
  have reached := refreshStages_append done (s :: post)
  rw [← split, refreshStages_cons] at reached
  exact ⟨pre, post, _, split, done, reached⟩

theorem ready_of_cleared (idle : ¬s.Begun) : t.refresh.isReady s.action = true := by
  obtain ⟨pre, post, rest, split, done, he⟩ := refresh_split wf hs cleared
  have nodup := wf.nodup
  rw [actions, split, List.map_append, List.map_cons, List.nodup_append] at nodup
  have other : ∀ c ∈ pre.map Stage.refresh, c.action ≠ s.action :=
    List.forall_mem_map.mpr fun c hc =>
      nodup.2.2 _ (List.mem_map_of_mem hc) _ (List.mem_cons_self ..)
  have succeeded : ∀ c ∈ pre.map Stage.refresh, c.progress = .succeeded :=
    List.forall_mem_map.mpr fun c hc => Stage.liveProgress_eq_succeeded_iff.mpr (done c hc)
  rw [isReady, he, readyIn_append other succeeded, readyIn, if_pos s.refresh_action]
  exact Stage.accepts_of_not_begun idle

theorem begun_of_ended (ordered : t.InOrder) (ended : t.Ended) : s.Begun := by
  by_contra idle
  have unready := ended.not_ready wf ordered s.action
  rw [ready_of_cleared wf hs cleared idle] at unready
  cases unready

theorem stored_of_refreshed (refreshed : t.refresh = t) : s.progress = s.liveProgress := by
  obtain ⟨pre, post, rest, split, -, he⟩ := refresh_split wf hs cleared
  rw [refreshed, split] at he
  obtain ⟨-, tail⟩ := List.append_inj he (by simp)
  exact congrArg Stage.progress (List.cons.inj tail).1

end

end Task

/-! ## Rounds -/

namespace Round

variable {σ δ ν : Type} [NameStore σ] [Dispatcher δ] [Validator ν]

omit [NameStore σ] [Validator ν] in
theorem submit_begins {t : Task} (wf : t.WellFormed) (owner : Nat) {a : Action} (r : Round σ δ ν)
    {s : Stage} (turn : r.Turn a t s) (nonempty : s.units ≠ [])
    (ok : (r.submit owner a t s.newIds).2.2 = none) : (r.submit owner a t s.newIds).1.BegunIn a := by
  have moves := (submit_moves (w := .any) owner a wf turn.cleared turn.present r s.newIds
    fun _ _ => trivial).1
  have kept : (s.action, s.ids) ∈ (r.submit owner a t s.newIds).1.shape :=
    moves.shape_eq wf ▸ List.mem_map_of_mem turn.found
  obtain ⟨s', hs', he⟩ := List.mem_map.mp kept
  obtain ⟨ha, hi⟩ := Prod.mk.inj he
  have nonempty' : s'.units ≠ [] := by
    rwa [Ne, ← Stage.ids_eq_nil_iff, hi, Stage.ids_eq_nil_iff]
  have ha' := ha.trans turn.action_eq
  refine ⟨s', hs', ha', Stage.begun_of_not_waiting nonempty' ?_⟩
  exact submit_empties owner wf turn.cleared turn.found turn.action_eq r ok s' hs' ha'

/-- A stage whose turn it is has begun once its task was admitted. -/
theorem admitTask_begins {t : Task} (wf : t.WellFormed) (owner : Nat) {a : Action} (r : Round σ δ ν)
    (conduct : ∀ m ∈ admitMoments owner a t r, Conduct.faultless.answers m.2)
    (present : a ∈ t.actions) (cleared : t.Cleared a) (isOpen : r.window.isOpen = true) :
    (r.admitTask owner a t).1.BegunIn a := by
  have moves := (admitTask_moves wf owner a r conduct).1
  obtain ⟨b, hb, rfl⟩ := List.mem_map.mp present
  by_cases begun : b.Begun
  · exact moves.begunIn wf ⟨b, hb, rfl, begun⟩
  · have ready := Task.ready_of_cleared wf hb cleared begun
    have wf' := wf.of_shape (Task.shape_refresh t)
    have completes := (admitTask_completes_iff wf owner b.action r).mpr conduct
    have visit := admitTask_visit wf owner b.action r
    generalize r.admitTask owner b.action t = out, admitMoments owner b.action t r = ms
      at visit conduct completes moves ⊢
    -- a stage that is judged has begun by that, one with units because none of them waits
    cases visit with
    | idle passed =>
      rcases passed with ⟨unready, -⟩ | ⟨closed, -⟩
      · rw [ready] at unready
        cases unready
      · rw [isOpen] at closed
        cases closed
    | crash turn asked => exact absurd rfl (completes _)
    | @judge _ passed s turn compare empty asked =>
      rw [conclude_task]
      refine Task.BegunIn.refresh ⟨_, Task.mem_replace_self turn.found rfl, turn.action_eq, ?_⟩
      exact Or.inr ⟨empty, by cases passed <;> simp⟩
    | @skip s turn gated empty =>
      rw [conclude_task]
      refine Task.BegunIn.refresh ⟨_, Task.mem_replace_self turn.found rfl, turn.action_eq, ?_⟩
      exact Or.inr ⟨empty, by simp⟩
    | halt turn submitted => exact absurd rfl (completes _)
    | @work t' r' s turn nonempty submitted =>
      rw [conclude_task]
      have begins := submit_begins wf' owner r turn nonempty
      rw [submitted] at begins
      exact (begins rfl).refresh

theorem admitTask_of_not_ready {a : Action} {t : Task} (h : t.refresh.isReady a = false) (owner : Nat)
    (r : Round σ δ ν) : r.admitTask owner a t = (t.refresh, r, .next) := by
  simp [admitTask, h]

theorem run_begins {a : Action} {i : Nat} {t : Task} (owner : Nat) (r : Round σ δ ν) {ts : List Task}
    (wf : ∀ t ∈ ts, t.WellFormed) (conduct : ∀ m ∈ r.moments a owner ts, Conduct.faultless.answers m.request)
    (isOpen : r.window.isOpen = true) (earlier : ∀ j < i, ∀ u, ts[j]? = some u → u.refresh.isReady a = false)
    (at_i : ts[i]? = some t) (present : a ∈ t.actions) (cleared : t.Cleared a) :
    ∃ t', (r.run a owner ts).1[i]? = some t' ∧ t'.BegunIn a := by
  refine run_induction (R := fun _ r ts ms out => (∀ m ∈ ms, Conduct.faultless.answers m.request) →
    r.window.isOpen = true → ∀ i, (∀ j < i, ∀ u, ts[j]? = some u → u.refresh.isReady a = false) →
    ts[i]? = some t → ∃ t', out.1[i]? = some t' ∧ t'.BegunIn a) ?_ ?_ ?_ owner r wf conduct isOpen i earlier at_i
  · exact fun _ _ _ _ _ _ at_i => nomatch at_i
  · intro owner r u ts ms out hwf _ course rest conduct isOpen i earlier at_i
    rw [List.forall_mem_append, List.forall_mem_map, List.forall_mem_map] at conduct
    cases i with
    | zero =>
      obtain rfl := Option.some.inj at_i
      exact ⟨_, rfl, admitTask_begins hwf owner r conduct.1 present cleared isOpen⟩
    | succ i =>
      rw [admitTask_of_not_ready (earlier 0 (Nat.zero_lt_succ i) u rfl)] at rest
      exact rest conduct.2 isOpen i (fun j lt => earlier (j + 1) (Nat.succ_lt_succ lt)) at_i
  · intro owner r u ts hwf course conduct isOpen i earlier at_i
    rw [List.forall_mem_map] at conduct
    cases i with
    | zero =>
      obtain rfl := Option.some.inj at_i
      exact ⟨_, rfl, admitTask_begins hwf owner r conduct present cleared isOpen⟩
    | succ i =>
      rw [admitTask_of_not_ready (earlier 0 (Nat.zero_lt_succ i) u rfl)] at course
      exact absurd rfl course

end Round

namespace Gate

theorem inFlight_map_refresh (a : Action) (ts : List Task) :
    inFlight a (ts.map Task.refresh) = inFlight a ts := by
  induction ts with
  | nil => rfl
  | cons t ts ih => rw [List.map_cons, inFlight_cons, inFlight_cons, Task.runningIn_refresh, ih]

end Gate

/-! ## Calls -/

namespace Scheduler

variable {σ δ ν : Type}

/-- It is the turn of the action `a` of the task at position `i`. -/
structure Poised (s : Scheduler σ δ ν) (i : Nat) (a : Action) : Prop where
  wellFormed : ∀ t ∈ s.tasks, t.WellFormed
  inOrder : ∀ t ∈ s.tasks, t.InOrder
  earlier : ∀ j < i, ∀ u, s.tasks[j]? = some u → u.Ended
  turn : ∃ t, s.tasks[i]? = some t ∧ a ∈ t.actions ∧ t.Cleared a
  room : a.isGated = true → ∃ c, s.gate.ceiling a = some c ∧ Gate.inFlight a s.tasks < c

def BegunAt (ts : List Task) (i : Nat) (a : Action) : Prop :=
  ∃ t, ts[i]? = some t ∧ t.BegunIn a

instance (ts : List Task) (i : Nat) (a : Action) : Decidable (BegunAt ts i a) :=
  match h : ts[i]? with
  | none => .isFalse fun ⟨_, ht, _⟩ => nomatch h.symm.trans ht
  | some t => decidable_of_iff (t.BegunIn a)
    ⟨fun begun => ⟨t, h, begun⟩, fun ⟨_, hu, begun⟩ => Option.some.inj (hu.symm.trans h) ▸ begun⟩

theorem BegunAt.of_evolves {w : Conduct} {ts ts' : List Task} {i : Nat} {a : Action}
    (h : BegunAt ts i a) (wf : ∀ t ∈ ts, t.WellFormed) (moves : Evolves w 0 ts ts') :
    BegunAt ts' i a := by
  obtain ⟨t, ht, begun⟩ := h
  obtain ⟨t', ht', moves⟩ := moves.moves i t ht
  exact ⟨t', ht', moves.begunIn (wf t (List.mem_of_getElem? ht)) begun⟩

section
variable {s s' : Scheduler σ δ ν} {i : Nat} {a : Action}

theorem Poised.of_evolves (h : s.Poised i a) (moves : Evolves .any 0 s.tasks s'.tasks)
    (gate : s'.gate = s.gate) (fewer : Gate.inFlight a s'.tasks ≤ Gate.inFlight a s.tasks) :
    s'.Poised i a := by
  have wf := h.wellFormed
  refine ⟨moves.wellFormed wf, moves.inOrder wf h.inOrder, fun j lt u hu => ?_, ?_, fun gated => ?_⟩
  · obtain ⟨t, ht, moves⟩ := moves.origin hu
    exact moves.ended (wf t (List.mem_of_getElem? ht)) (h.earlier j lt t ht)
  · obtain ⟨t, ht, present, cleared⟩ := h.turn
    obtain ⟨t', ht', moves⟩ := moves.moves i t ht
    have wf_t := wf t (List.mem_of_getElem? ht)
    have actions := Task.actions_eq_of_shape (moves.shape_eq wf_t)
    exact ⟨t', ht', actions ▸ present, moves.cleared wf_t cleared⟩
  · obtain ⟨c, hc, lt⟩ := h.room gated
    exact ⟨c, gate ▸ hc, Nat.lt_of_le_of_lt fewer lt⟩

variable [NameStore σ]

theorem Poised.observe (h : s.Poised i a) (report : Report) : (s.observe report).1.Poised i a := by
  refine h.of_evolves (observe_evolves s report) rfl (Nat.le_of_eq ?_)
  rw [observe_tasks, Gate.inFlight_map_refresh]

variable [Dispatcher δ] [Validator ν]

theorem Poised.schedule (h : s.Poised i a) {b : Action} (ne : a ≠ b) (report : Report) :
    (s.schedule b report).1.Poised i a := by
  refine h.of_evolves (schedule_evolves s h.wellFormed b report fun _ _ => trivial).1
    (schedule_gate s b report) ?_
  rcases s.schedule_cases b report with ⟨window, he, -⟩ | ⟨reason, he, -⟩
  · rw [he]
    exact (Round.run_fewer ne 0 _ s.tasks h.wellFormed).inFlight_le
  · exact Nat.le_of_eq (by rw [he])

theorem Poised.admits (h : s.Poised i a) (report : Report) : ∃ window, window.isOpen = true ∧
    s.schedule a report = s.admitWith a report window ∧
    s.scheduleMoments a report = s.windowMoments a report window := by
  unfold Scheduler.schedule scheduleMoments Gate.admission
  by_cases compare : a.isCompare = true
  · rw [if_pos compare]
    exact ⟨.unbounded, rfl, rfl, rfl⟩
  · rw [if_neg compare]
    have gated : a.isGated = true := by simp [Action.isGated, compare]
    obtain ⟨c, hc, lt⟩ := h.room gated
    rw [hc]
    simp only [if_neg (Nat.not_le_of_lt lt)]
    exact ⟨.bounded _ c, decide_eq_true lt, rfl, rfl⟩

theorem Poised.schedule_begins (h : s.Poised i a) (report : Report)
    (conduct : ∀ m ∈ s.scheduleMoments a report, Conduct.faultless.answers m.request) :
    BegunAt (s.schedule a report).1.tasks i a := by
  obtain ⟨window, isOpen, he, hm⟩ := h.admits report
  obtain ⟨t, ht, present, cleared⟩ := h.turn
  rw [hm] at conduct
  rw [he]
  refine Round.run_begins 0 _ h.wellFormed conduct isOpen (fun j lt u hu => ?_) ht present cleared
  have mem := List.mem_of_getElem? hu
  exact (h.earlier j lt u hu).not_ready (h.wellFormed u mem) (h.inOrder u mem) a

theorem Poised.scheduleAll_begins {actions : List Action} (mem : a ∈ actions) (h : s.Poised i a)
    (report : Report)
    (conduct : ∀ m ∈ s.scheduleAllMoments report actions, Conduct.faultless.answers m.request) :
    BegunAt (s.scheduleAll report actions).1.tasks i a := by
  -- the action is still to come, or has begun
  refine scheduleAll_induction (R := fun s _ actions ms out => (∀ m ∈ ms, Conduct.faultless.answers m.request) →
    a ∈ actions ∧ s.Poised i a ∨ BegunAt s.tasks i a → BegunAt out.1.tasks i a) ?_ ?_ ?_ actions h.wellFormed
    report conduct (Or.inl ⟨mem, h⟩)
  · exact fun s _ _ now => now.resolve_left fun h => List.not_mem_nil h.1
  · intro s b rest report ms out wf _ later conduct now
    obtain ⟨here, there⟩ := List.forall_mem_append.mp conduct
    apply later there
    rcases now with ⟨mem, poised⟩ | begun
    · by_cases he : a = b
      · subst he
        exact Or.inr (poised.schedule_begins report here)
      · exact Or.inl ⟨(List.mem_cons.mp mem).resolve_left he, poised.schedule he report⟩
    · exact Or.inr (begun.of_evolves wf (schedule_evolves (w := .any) s wf b report fun _ _ => trivial).1)
  · intro s b rest report f wf fault conduct _
    cases fault.symm.trans ((schedule_completes_iff s wf b report).mpr conduct)

theorem Poised.tick_begins (h : s.Poised i a) (planned : a ∈ s.plan.actions)
    (conduct : ∀ m ∈ s.moments .tick, Conduct.faultless.answers m.request) :
    BegunAt s.tick.1.tasks i a := by
  have seen := h.observe .empty
  rcases s.tick_cases with ⟨all, -, he⟩ | ⟨s', result, done, hm, he⟩
  · rw [he]
    -- the task has ended then, so that the stage cannot be still to come
    obtain ⟨t, ht, present, cleared⟩ := seen.turn
    have mem := List.mem_of_getElem? ht
    obtain ⟨b, hb, rfl⟩ := List.mem_map.mp present
    refine ⟨t, ht, b, hb, rfl, ?_⟩
    refine Task.begun_of_ended (seen.wellFormed t mem) hb cleared (seen.inOrder t mem) ?_
    obtain ⟨u, -, rfl⟩ := List.mem_map.mp (observe_tasks s .empty ▸ mem)
    rw [Task.Ended, Task.refresh_refresh]
    exact all _ mem
  · rw [hm] at conduct
    have begun := seen.scheduleAll_begins planned (s.observe .empty).2.1 conduct
    rw [done] at begun
    rw [he]
    exact begun

end

end Scheduler

end TableMigration
