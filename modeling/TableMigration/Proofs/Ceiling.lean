import TableMigration.Proofs.Exchanges

/-!
# Ceilings

A window is looked at between tasks and not between the units of one, so that the last task
admitted may overrun its ceiling, by all of its units. What holds at any time is that the units
running in all tasks but one stay under the ceiling. Within a round this goes with the window
counting at least the units that run.
-/

namespace TableMigration

namespace Task

/-- How many units of `a` run in this task. -/
def runningIn (t : Task) (a : Action) : Nat :=
  ((t.stage? a).map (·.runningCount)).getD 0

def unitsIn (t : Task) (a : Action) : Nat :=
  ((t.stage? a).map (·.units.length)).getD 0

theorem runningIn_le_unitsIn (t : Task) (a : Action) : t.runningIn a ≤ t.unitsIn a := by
  unfold runningIn unitsIn
  cases t.stage? a with
  | none => exact Nat.le_refl _
  | some s => exact List.countP_le_length

theorem unitsIn_of_shape {t t' : Task} (h : t'.shape = t.shape) (a : Action) :
    t'.unitsIn a = t.unitsIn a := by
  have read : ∀ t : Task, t.unitsIn a =
      ((t.shape.find? fun p => p.1 == a).map fun p => p.2.length).getD 0 := fun t => by
    rw [shape, List.find?_map, Option.map_map]
    simp [unitsIn, stage?, Stage.ids, Function.comp_def]
  rw [read, read, h]

@[simp] theorem runningIn_refresh (t : Task) (a : Action) : t.refresh.runningIn a = t.runningIn a := by
  unfold runningIn
  rw [map_stage?_refresh _ fun _ => rfl]

section
variable {t t' : Task} (wf : t.WellFormed)
include wf

theorem runningIn_of_mem {s : Stage} (hs : s ∈ t.stages) : t.runningIn s.action = s.runningCount := by
  rw [runningIn, wf.stage?_of_mem hs]
  rfl

theorem runningIn_eq_zero_iff {a : Action} : t.runningIn a = 0 ↔
    ∀ s ∈ t.stages, s.action = a → ∀ u ∈ s.units, u.progress ≠ .running := by
  have none_runs : ∀ s : Stage, s.runningCount = 0 ↔ ∀ u ∈ s.units, u.progress ≠ .running := fun s => by
    simp [Stage.runningCount, List.countP_eq_zero]
  refine ⟨fun h s hs ha => ?_, fun h => ?_⟩
  · rw [← ha, runningIn_of_mem wf hs] at h
    exact (none_runs s).mp h
  · unfold runningIn
    cases hs : t.stage? a with
    | none => rfl
    | some s =>
      obtain ⟨hm, ha⟩ := mem_of_stage? hs
      exact (none_runs s).mpr (h s hm ha)

theorem runningIn_replace {s s' : Stage} (hs : s ∈ t.stages) (ha : s'.action = s.action) (b : Action) :
    (t.replace s').runningIn b = if b = s.action then s'.runningCount else t.runningIn b := by
  rw [runningIn, stage?_replace, ha]
  by_cases hb : b = s.action
  · rw [if_pos hb, if_pos hb, hb, wf.stage?_of_mem hs]
    rfl
  · rw [if_neg hb, if_neg hb]
    rfl

theorem runningIn_judge {s : Stage} (hs : s ∈ t.stages) (p : Progress) (b : Action) :
    (t.replace { s with progress := p }).runningIn b = t.runningIn b := by
  refine (runningIn_replace wf hs ?_ b).trans ?_
  · rfl
  · by_cases hb : b = s.action
    · rw [if_pos hb, hb, runningIn_of_mem wf hs]
      rfl
    · rw [if_neg hb]

theorem runningIn_start {a : Action} {id : String} (h : t.start a id = .ok (some t')) :
    t'.runningIn a = t.runningIn a + 1 ∧ ∀ b, b ≠ a → t'.runningIn b = t.runningIn b := by
  obtain ⟨s, hs, rfl, hn, rfl⟩ := start_eq_some h
  have count := Stage.runningCount_setUnit (wf.stages s hs).nodup hn .running
  have replaced := runningIn_replace wf hs (Stage.setUnit_action s id .running)
  refine ⟨?_, fun b hb => by rw [replaced, if_neg hb]⟩
  rw [replaced, if_pos rfl, runningIn_of_mem wf hs]
  simpa using count

theorem runningIn_finish (a : Action) (id : String) (o : Outcome) (b : Action) :
    (t.finish a id o).1.runningIn b ≤ t.runningIn b := by
  rcases finish_cases wf a id o with he | ⟨s, hs, rfl, hr, he⟩
  · exact Nat.le_of_eq (congrArg (·.runningIn b) he)
  · have count := Stage.runningCount_setUnit (wf.stages s hs).nodup hr o.progress
    rw [if_pos rfl, if_neg o.progress_ne_running] at count
    rw [he, runningIn_replace wf hs (Stage.setUnit_action ..)]
    by_cases hb : b = s.action
    · rw [if_pos hb, hb, runningIn_of_mem wf hs]
      omega
    · exact Nat.le_of_eq (if_neg hb)

end

end Task

/-! ## Units in flight -/

namespace Gate

theorem inFlight_cons (a : Action) (t : Task) (ts : List Task) :
    inFlight a (t :: ts) = t.runningIn a + inFlight a ts := rfl

theorem inFlight_append (a : Action) (ts us : List Task) :
    inFlight a (ts ++ us) = inFlight a ts + inFlight a us := by
  induction ts with
  | nil => simp [inFlight]
  | cons t ts ih => rw [List.cons_append, inFlight_cons, inFlight_cons, ih, Nat.add_assoc]

def Idle (a : Action) (ts : List Task) : Prop :=
  ∀ t ∈ ts, ∀ s ∈ t.stages, s.action = a → ∀ u ∈ s.units, u.progress ≠ .running

theorem inFlight_eq_zero_iff {a : Action} {ts : List Task} (wf : ∀ t ∈ ts, t.WellFormed) :
    inFlight a ts = 0 ↔ Idle a ts := by
  induction ts with
  | nil => simp [inFlight, Idle]
  | cons t ts ih =>
    obtain ⟨hwf, hwfs⟩ := List.forall_mem_cons.mp wf
    rw [inFlight_cons, Nat.add_eq_zero_iff, Task.runningIn_eq_zero_iff hwf, ih hwfs, Idle, Idle,
      List.forall_mem_cons]

def mostUnits (a : Action) (ts : List Task) : Nat :=
  (ts.map (·.unitsIn a)).max?.getD 0

def Fewer (a : Action) : List Task → List Task → Prop :=
  List.Forall₂ fun t t' => t'.runningIn a ≤ t.runningIn a

theorem Fewer.refl (a : Action) (ts : List Task) : Fewer a ts ts :=
  List.forall₂_same.mpr fun _ _ => Nat.le_refl _

theorem Fewer.inFlight_le {a : Action} {ts ts' : List Task} (h : Fewer a ts ts') :
    inFlight a ts' ≤ inFlight a ts := by
  induction h with
  | nil => exact Nat.le_refl _
  | cons ht _ ih => exact Nat.add_le_add ht ih

theorem Fewer.split {a : Action} {us ts' : List Task} : ∀ {ts : List Task}, Fewer a (ts ++ us) ts' →
    ∃ vs ws, ts' = vs ++ ws ∧ Fewer a ts vs ∧ Fewer a us ws
  | [], h => ⟨[], ts', rfl, .nil, h⟩
  | t :: ts, h => by
    obtain ⟨t', rest, ht, hrest, rfl⟩ := List.forall₂_cons_left_iff.mp h
    obtain ⟨vs, ws, rfl, hvs, hws⟩ := Fewer.split hrest
    exact ⟨t' :: vs, ws, rfl, .cons ht hvs, hws⟩

/-- Nothing runs, or all tasks but one stay under the ceiling. -/
def Fits (a : Action) (ceiling : Option Nat) (ts : List Task) : Prop :=
  inFlight a ts = 0 ∨
    ∃ pre t post, ts = pre ++ t :: post ∧ ∃ c, ceiling = some c ∧ inFlight a (pre ++ post) < c

theorem Fits.eq_zero_of_none {a : Action} {ts : List Task} (h : Fits a none ts) :
    inFlight a ts = 0 := by
  rcases h with hz | ⟨_, _, _, _, _, hn, _⟩
  · exact hz
  · cases hn

theorem Fits.eq_zero_of_zero {a : Action} {ts : List Task} (h : Fits a (some 0) ts) :
    inFlight a ts = 0 := by
  rcases h with hz | ⟨_, _, _, _, _, hn, hlt⟩
  · exact hz
  · cases hn; cases hlt

theorem Fits.inFlight_le {a : Action} {c : Nat} {ts : List Task} (h : Fits a (some c) ts) :
    inFlight a ts ≤ c - 1 + mostUnits a ts := by
  rcases h with hz | ⟨pre, t, post, rfl, n, hn, hlt⟩
  · rw [hz]; exact Nat.zero_le _
  · obtain rfl := Option.some.inj hn
    have most : t.unitsIn a ≤ mostUnits a (pre ++ t :: post) :=
      List.le_max?_getD_of_mem (List.mem_map_of_mem (by simp))
    have running := t.runningIn_le_unitsIn a
    rw [inFlight_append] at hlt ⊢
    rw [inFlight_cons]
    omega

theorem Fits.of_fewer {a : Action} {ceiling : Option Nat} {ts ts' : List Task}
    (h : Fits a ceiling ts) (fewer : Fewer a ts ts') : Fits a ceiling ts' := by
  rcases h with hz | ⟨pre, t, post, rfl, c, hc, hlt⟩
  · exact Or.inl (Nat.le_zero.mp (hz ▸ fewer.inFlight_le))
  · obtain ⟨pre', rest, rfl, hpre, hrest⟩ := fewer.split
    obtain ⟨t', post', -, hpost, rfl⟩ := List.forall₂_cons_left_iff.mp hrest
    have others : inFlight a (pre' ++ post') ≤ inFlight a (pre ++ post) := by
      rw [inFlight_append, inFlight_append]
      exact Nat.add_le_add hpre.inFlight_le (Fewer.inFlight_le hpost)
    exact Or.inr ⟨pre', t', post', rfl, c, hc, Nat.lt_of_le_of_lt others hlt⟩

end Gate

/-! ## Rounds -/

namespace Round

open Gate (Fewer Fits inFlight)

variable {σ δ ν : Type}

structure Admits (a : Action) (t t' : Task) (w w' : Window) (course : Course) : Prop where
  ceiling : w'.ceiling = w.ceiling
  others : ∀ b, b ≠ a → t'.runningIn b ≤ t.runningIn b
  fewer_or_open : t'.runningIn a ≤ t.runningIn a ∨ w.isOpen = true
  counted : course = .next → t'.runningIn a + w.inFlight ≤ t.runningIn a + w'.inFlight

theorem Admits.of_fewer {a : Action} {t t' : Task} {w w' : Window} (course : Course)
    (h : ∀ b, t'.runningIn b ≤ t.runningIn b) (same : w' = w) : Admits a t t' w w' course where
  ceiling := same ▸ rfl
  others b _ := h b
  fewer_or_open := Or.inl (h a)
  counted _ := same ▸ Nat.add_le_add_right (h a) _

theorem submit_counts [Dispatcher δ] (owner : Nat) (a : Action) {t : Task} (wf : t.WellFormed)
    (r : Round σ δ ν) (ids : List String) :
    (∀ b, b ≠ a → (r.submit owner a t ids).1.runningIn b ≤ t.runningIn b) ∧
      ((r.submit owner a t ids).2.2 = none →
        (r.submit owner a t ids).1.runningIn a + r.window.inFlight ≤
          t.runningIn a + (r.submit owner a t ids).2.1.window.inFlight) := by
  fun_induction Round.submit owner a t r ids with
  | case1 t r => exact ⟨fun _ _ => Nat.le_refl _, fun _ => Nat.le_refl _⟩
  | case2 t r id ids f hs => exact ⟨fun _ _ => Nat.le_refl _, fun _ => Nat.le_refl _⟩
  | case3 t r id ids hs ih => exact ih wf
  | case4 t r id ids t' hs h d r' e hd =>
    exact ⟨fun b hb => Nat.le_of_eq ((Task.runningIn_start wf hs).2 b hb), fun h => by cases h⟩
  | case5 t r id ids t' hs h d r' admitted hd ih =>
    obtain ⟨self, others⟩ := Task.runningIn_start wf hs
    obtain ⟨others', counted⟩ := ih (wf.start hs)
    refine ⟨fun b hb => others b hb ▸ others' b hb, fun ok => ?_⟩
    have more : admitted.window.inFlight = r.window.inFlight + 1 := rfl
    have := counted ok
    omega
  | case6 t r id ids t' hs h d r' admitted o hd ih =>
    obtain ⟨self, others⟩ := Task.runningIn_start wf hs
    have settled := Task.runningIn_finish (wf.start hs) a id o
    obtain ⟨others', counted⟩ := ih ((wf.start hs).finish a id o)
    refine ⟨fun b hb => others b hb ▸ Nat.le_trans (others' b hb) (settled b), fun ok => ?_⟩
    have more : admitted.window.inFlight = r.window.inFlight + 1 := rfl
    have := counted ok
    have := settled a
    omega

section
variable [NameStore σ] [Dispatcher δ] [Validator ν]

theorem admitTask_admits {t : Task} (wf : t.WellFormed) (owner : Nat) (a : Action)
    (r : Round σ δ ν) :
    Admits a t (r.admitTask owner a t).1 r.window (r.admitTask owner a t).2.1.window
      (r.admitTask owner a t).2.2 := by
  have wf' := wf.of_shape (Task.shape_refresh t)
  have refreshed := fun b => Nat.le_of_eq (Task.runningIn_refresh t b)
  have judged : ∀ s ∈ t.refresh.stages, ∀ p b,
      (t.refresh.replace { s with progress := p }).refresh.runningIn b ≤ t.runningIn b :=
    fun s hs p b => by
      rw [Task.runningIn_refresh, Task.runningIn_judge wf' hs]
      exact refreshed b
  have visit := admitTask_visit wf owner a r
  generalize r.admitTask owner a t = out, admitMoments owner a t r = ms at visit ⊢
  cases visit with
  | idle passed => exact .of_fewer _ refreshed rfl
  | crash turn asked => exact .of_fewer _ refreshed rfl
  | judge turn compare empty asked =>
    refine .of_fewer _ (fun b => ?_) rfl
    rw [conclude_task]
    exact judged _ turn.found _ b
  | skip turn gated empty =>
    refine .of_fewer _ (fun b => ?_) rfl
    rw [conclude_task]
    exact judged _ turn.found _ b
  | @halt _ _ _ s turn submitted =>
    have frame := submit_frame owner a t.refresh r s.newIds
    obtain ⟨others, -⟩ := submit_counts owner a wf' r s.newIds
    simp only [submitted, Task.runningIn_refresh] at frame others
    exact ⟨frame.ceiling, others, Or.inr turn.isOpen, fun h => by cases h⟩
  | @work t' r' s turn _ submitted =>
    have frame := submit_frame owner a t.refresh r s.newIds
    obtain ⟨others, counted⟩ := submit_counts owner a wf' r s.newIds
    simp only [submitted, Task.runningIn_refresh] at frame others counted
    refine ⟨frame.ceiling, fun b hb => ?_, Or.inr turn.isOpen, fun _ => ?_⟩
    · rw [conclude_task, Task.runningIn_refresh]
      exact others b hb
    · rw [conclude_task, Task.runningIn_refresh]
      exact counted trivial

theorem run_fewer {a b : Action} (hb : b ≠ a) (owner : Nat) (r : Round σ δ ν) (ts : List Task)
    (wf : ∀ t ∈ ts, t.WellFormed) : Fewer b ts (r.run a owner ts).1 :=
  run_relates (R := fun _ _ ts _ ts' _ => Fewer b ts ts') (fun _ _ => Fewer.refl b)
    (fun hwf _ rest => .cons ((admitTask_admits hwf _ a _).others b hb) rest) owner r wf

theorem admitTask_fits {a : Action} {c : Nat} {t : Task} (wf : t.WellFormed) (owner : Nat) (r : Round σ δ ν)
    {pre ts : List Task} (bounded : r.window.ceiling = some c)
    (counted : inFlight a (pre ++ t :: ts) ≤ r.window.inFlight) (fits : Fits a (some c) (pre ++ t :: ts)) :
    Fits a (some c) (pre ++ (r.admitTask owner a t).1 :: ts) := by
  rw [Gate.inFlight_append, Gate.inFlight_cons] at counted
  rcases (admitTask_admits wf owner a r).fewer_or_open with less | isOpen
  · exact fits.of_fewer (List.rel_append (Fewer.refl a pre) (.cons less (Fewer.refl a ts)))
  · rw [Window.isOpen, bounded, decide_eq_true_eq] at isOpen
    refine Or.inr ⟨pre, _, ts, rfl, c, rfl, ?_⟩
    rw [Gate.inFlight_append]
    omega

theorem run_fits {a : Action} {c : Nat} (owner : Nat) (r : Round σ δ ν) (ts : List Task)
    (wf : ∀ t ∈ ts, t.WellFormed) (bounded : r.window.ceiling = some c)
    (counted : inFlight a ts ≤ r.window.inFlight) (fits : Fits a (some c) ts) :
    Fits a (some c) (r.run a owner ts).1 := by
  -- `pre` are the tasks gone through already, as they are now
  refine run_induction (R := fun _ r ts _ out => ∀ pre, r.window.ceiling = some c →
    inFlight a (pre ++ ts) ≤ r.window.inFlight → Fits a (some c) (pre ++ ts) → Fits a (some c) (pre ++ out.1))
    ?_ ?_ ?_ owner r wf [] bounded counted fits
  · exact fun _ _ _ _ _ fits => fits
  · intro owner r t ts ms out hwf _ course rest pre bounded counted fits
    have admits := admitTask_admits hwf owner a r
    have step := admitTask_fits hwf owner r bounded counted fits
    have counted' := admits.counted course
    rw [List.append_cons]
    refine rest _ (admits.ceiling.trans bounded) ?_ (by simpa using step)
    simp only [List.append_assoc, List.singleton_append, Gate.inFlight_append, Gate.inFlight_cons] at counted ⊢
    omega
  · exact fun hwf _ _ bounded counted fits => admitTask_fits hwf _ _ bounded counted fits

end

end Round

/-! ## Runs -/

namespace Scheduler

open Gate (Fewer Fits inFlight)

variable {σ δ ν : Type}

structure WithinCeilings (s : Scheduler σ δ ν) : Prop where
  wellFormed : ∀ t ∈ s.tasks, t.WellFormed
  fits : ∀ a, a.isGated = true → Fits a (s.gate.ceiling a) s.tasks

theorem WithinCeilings.of_fewer {s s' : Scheduler σ δ ν} (h : s.WithinCeilings)
    (wf : ∀ t ∈ s'.tasks, t.WellFormed) (gate : s'.gate = s.gate)
    (fewer : ∀ a, Fewer a s.tasks s'.tasks) : s'.WithinCeilings :=
  ⟨wf, fun a ha => gate ▸ (h.fits a ha).of_fewer (fewer a)⟩

theorem finish_withinCeilings {s : Scheduler σ δ ν} (within : s.WithinCeilings) (h : Handle)
    (o : Outcome) : (s.finish h o).1.WithinCeilings := by
  have wf := (finish_evolves (w := .any) s within.wellFormed h o trivial).wellFormed within.wellFormed
  rw [finish_eq] at wf ⊢
  refine within.of_fewer wf rfl fun a => ?_
  refine List.forall₂_iff_get.mpr ⟨(List.length_modify ..).symm, fun i hi hi' => ?_⟩
  simp only [List.get_eq_getElem, List.getElem_modify]
  by_cases he : h.owner = i
  · rw [if_pos he]
    exact Task.runningIn_finish (within.wellFormed _ (List.getElem_mem hi)) ..
  · simp only [if_neg he, Nat.le_refl]

section
variable [NameStore σ]

theorem observe_withinCeilings {s : Scheduler σ δ ν} (within : s.WithinCeilings) (report : Report) :
    (s.observe report).1.WithinCeilings := by
  have wf := (observe_evolves (w := .any) s report).wellFormed within.wellFormed
  refine within.of_fewer wf rfl fun a => ?_
  rw [observe_tasks]
  exact List.forall₂_map_right_iff.mpr
    (List.forall₂_same.mpr fun t _ => Nat.le_of_eq (Task.runningIn_refresh t a))

variable [Dispatcher δ] [Validator ν]

theorem schedule_gate (s : Scheduler σ δ ν) (a : Action) (report : Report) :
    (s.schedule a report).1.gate = s.gate := by
  rcases s.schedule_cases a report with ⟨window, he, -⟩ | ⟨reason, he, -⟩
  · rw [he]
    rfl
  · rw [he]

theorem schedule_withinCeilings {s : Scheduler σ δ ν} (within : s.WithinCeilings) (b : Action)
    (report : Report) : (s.schedule b report).1.WithinCeilings := by
  have wf := within.wellFormed
  have moves := (schedule_evolves (w := .any) s wf b report fun _ _ => trivial).1
  refine ⟨moves.wellFormed wf, fun a ha => ?_⟩
  rw [schedule_gate]
  have fits := within.fits a ha
  have others : ∀ window, a ≠ b →
      Fits a (s.gate.ceiling a) (s.admitWith b report window).1.tasks := fun window hab =>
    fits.of_fewer (Round.run_fewer hab 0 _ s.tasks wf)
  unfold schedule Gate.admission
  by_cases hb : b.isCompare = true
  · rw [if_pos hb]
    exact others _ fun hab => by simp [Action.isGated, hab, hb] at ha
  · rw [if_neg hb]
    cases hc : s.gate.ceiling b with
    | none => exact fits
    | some c =>
      by_cases full : c ≤ inFlight b s.tasks
      · simp only [if_pos full]
        exact fits
      · simp only [if_neg full]
        by_cases hab : a = b
        · subst hab
          rw [hc] at fits ⊢
          exact Round.run_fits 0 _ s.tasks wf rfl (Nat.le_refl _) fits
        · exact others _ hab

theorem Step.withinCeilings {w : Conduct} {s s' : Scheduler σ δ ν} (step : Step w s s')
    (within : s.WithinCeilings) : s'.WithinCeilings := by
  cases step with
  | call c _ =>
    exact perform_keeps (P := WithinCeilings) (fun s report h => observe_withinCeilings h report)
      (fun s a report h => schedule_withinCeilings h a report) within c
  | settle _ _ => exact finish_withinCeilings within _ _
  | outside d v counts => exact ⟨within.wellFormed, within.fits⟩

theorem Step.gate_eq {w : Conduct} {s s' : Scheduler σ δ ν} (step : Step w s s') :
    s'.gate = s.gate := by
  cases step with
  | call c _ =>
    exact perform_keeps (P := fun u => u.gate = s.gate) (fun _ _ h => h)
      (fun u a report h => (schedule_gate u a report).trans h) rfl c
  | settle _ _ => rw [finish_eq]
  | outside d v counts => rfl

theorem Reaches.gate_eq {w : Conduct} {s s' : Scheduler σ δ ν} (run : Reaches w s s') :
    s'.gate = s.gate := by
  induction run with
  | refl => rfl
  | tail _ step ih => rw [step.gate_eq, ih]

theorem Reaches.withinCeilings {w : Conduct} {s s' : Scheduler σ δ ν} (run : Reaches w s s')
    (within : s.WithinCeilings) : s'.WithinCeilings := by
  induction run with
  | refl => exact within
  | tail _ step ih => exact step.withinCeilings ih

end

theorem new_withinCeilings {tasks : List Task} (fresh : ∀ t ∈ tasks, t.Fresh) (plan : Plan)
    (gate : Gate) (log : FailoverLog σ) (d : δ) (v : ν) :
    (Scheduler.new plan tasks gate log d v).WithinCeilings := by
  have wf := new_wellFormed fresh plan gate log d v
  refine ⟨wf, fun a _ => Or.inl ((Gate.inFlight_eq_zero_iff wf).mpr ?_)⟩
  refine new_keeps (fun t ht s hs _ u hu => ?_) (fun t _ => ?_) plan gate log d v
  · rw [((fresh t ht).stage_new hs).2 u hu]
    decide
  · refine List.forall_mem_map.mpr fun s _ _ => List.forall_mem_map.mpr fun u _ => ?_
    exact fun h => by cases h

/-- At any time of any run either no unit of a gated action runs, or in all tasks but one there are
fewer than its ceiling. -/
theorem running_within_ceiling [NameStore σ] [Dispatcher δ] [Validator ν] {tasks : List Task}
    (fresh : ∀ t ∈ tasks, t.Fresh) {plan : Plan} {gate : Gate} {log : FailoverLog σ} {d : δ} {v : ν}
    {s : Scheduler σ δ ν} (run : Reaches .any (Scheduler.new plan tasks gate log d v) s) {a : Action}
    (gated : a.isGated = true) :
    (gate.ceiling a = none ∨ gate.ceiling a = some 0 → Gate.Idle a s.tasks) ∧
    ∀ c, gate.ceiling a = some c → 0 < c →
      (Gate.Idle a s.tasks ∨
        ∃ pre t post, s.tasks = pre ++ t :: post ∧ inFlight a (pre ++ post) ≤ c - 1) ∧
      inFlight a s.tasks ≤ c - 1 + Gate.mostUnits a tasks := by
  have start := new_withinCeilings fresh plan gate log d v
  have within := run.withinCeilings start
  have idle := Gate.inFlight_eq_zero_iff (a := a) within.wellFormed
  have fits : Fits a (gate.ceiling a) s.tasks := by
    have := within.fits a gated
    rwa [run.gate_eq] at this
  have same : ∀ {t t' : Task}, t'.shape = t.shape → t'.unitsIn a = t.unitsIn a :=
    fun h => Task.unitsIn_of_shape h a
  have units : s.tasks.map (·.unitsIn a) = tasks.map (·.unitsIn a) := by
    rw [(run.evolves start.wellFormed).map_eq same start.wellFormed, new_map_eq same]
  refine ⟨?_, fun c hc hpos => ?_⟩
  · rintro (hc | hc)
    · exact idle.mp (hc ▸ fits).eq_zero_of_none
    · exact idle.mp (hc ▸ fits).eq_zero_of_zero
  · rw [hc] at fits
    have total := fits.inFlight_le
    rw [Gate.mostUnits, units] at total
    refine ⟨fits.imp idle.mp ?_, total⟩
    rintro ⟨pre, t, post, split, n, hn, hlt⟩
    cases hn
    exact ⟨pre, t, post, split, Nat.le_sub_one_of_lt hlt⟩

/-- Two units run under a ceiling of one, but they are of one table. -/
theorem twoTables_within_ceiling :
    inFlight .createTable OneSlot.later.tasks = 2 ∧
    2 ≤ 1 - 1 + Gate.mostUnits .createTable [OneTable.task, OneSlot.second] ∧
    ∃ pre t post, OneSlot.later.tasks = pre ++ t :: post ∧ inFlight .createTable (pre ++ post) ≤ 1 - 1 := by
  have ticked : Reaches .any (OneSlot.following .hold) (OneSlot.following .hold).tick.1 :=
    .single (.call .tick fun _ _ => trivial)
  have settled := (ticked.tail (.settle (h := OneTable.unit "p=1") (o := .succeeded) (by decide) trivial)).tail
    (.settle (h := OneTable.unit "p=2") (o := .succeeded) (by decide) trivial)
  have run : Reaches .any (OneSlot.following .hold) OneSlot.later := settled.tail (.call .tick fun _ _ => trivial)
  have two : inFlight .createTable OneSlot.later.tasks = 2 := by decide
  obtain ⟨split, bound⟩ :=
    (running_within_ceiling OneSlot.tasks_fresh run (a := .createTable) rfl).2 1 rfl Nat.one_pos
  have start := new_wellFormed OneSlot.tasks_fresh OneTable.plan (.uniform OneTable.plan 1)
    (.openOn (⟨[]⟩ : MemoryStore)) (.ofPolicy ⟨.hold, .empty, [], []⟩ : PolicyDispatcher)
    (⟨[], [], []⟩ : FixedValidator)
  have busy : ¬Gate.Idle .createTable OneSlot.later.tasks := fun idle => by
    rw [← Gate.inFlight_eq_zero_iff ((run.evolves start).wellFormed start), two] at idle
    cases idle
  exact ⟨two, two ▸ bound, split.resolve_left busy⟩

end Scheduler

end TableMigration
