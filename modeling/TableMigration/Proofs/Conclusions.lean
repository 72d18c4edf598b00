import TableMigration.Error
import TableMigration.Heartbeat
import TableMigration.Proofs.Faults
import TableMigration.Proofs.Finished
import TableMigration.Proofs.Policies

/-!
# How a heartbeat concludes

The loop ends with the first tick that finds all finished, is refused a unit or crashes. A fault
leaves a task behind that is not done, and what is stored as succeeded is done, so that a conclusion
is clean exactly if every task has succeeded.
-/

namespace TableMigration

theorem Exchange.calls_eq {δ ν : Type} [Dispatcher δ] [Validator ν] {counts : RowCounts} {k : Nat}
    {x y : Outside δ ν} {ms : List Moment} (h : Exchange counts k x ms y) {calls : δ → Nat}
    (submits : ∀ d u, calls (Dispatcher.submit d u).1 = calls d) :
    calls y.dispatcher = calls x.dispatcher := by
  induction h with
  | nil x => rfl
  | @submit x _ _ _ u d _ served _ ih =>
    have once := submits x.dispatcher u
    rw [served] at once
    exact ih.trans once
  | validate _ _ _ _ ih => exact ih

namespace Scheduler

variable {σ δ ν : Type} {s s' s'' : Scheduler σ δ ν}

/-- What may come between two ticks: units are settled, and the outside moves on. -/
inductive Lapse (s : Scheduler σ δ ν) : Scheduler σ δ ν → Prop
  | refl : Lapse s s
  | settle {s' : Scheduler σ δ ν} (lapse : Lapse s s') (h : Handle) (o : Outcome) :
      Lapse s (s'.finish h o).1
  | outside {s' : Scheduler σ δ ν} (lapse : Lapse s s') (d : δ) (v : ν) (counts : RowCounts) :
      Lapse s { s' with dispatcher := d, validator := v, counts }

structure Continues (s s' : Scheduler σ δ ν) : Prop where
  evolves : Evolves .any 0 s.tasks s'.tasks
  resumed_eq : s'.resumed = s.resumed

theorem Continues.refl (s : Scheduler σ δ ν) : s.Continues s :=
  ⟨.refl .., rfl⟩

theorem Continues.trans (h : s.Continues s') (h' : s'.Continues s'') : s.Continues s'' :=
  ⟨h.evolves.trans h'.evolves, h'.resumed_eq.trans h.resumed_eq⟩

theorem Continues.wellFormed (h : s.Continues s') (wf : ∀ t ∈ s.tasks, t.WellFormed) :
    ∀ t ∈ s'.tasks, t.WellFormed :=
  h.evolves.wellFormed wf

theorem finish_continues (wf : ∀ t ∈ s.tasks, t.WellFormed) (h : Handle) (o : Outcome) :
    s.Continues (s.finish h o).1 :=
  ⟨finish_evolves s wf h o trivial, by rw [finish_eq]⟩

theorem Lapse.continues (lapse : Lapse s s') (wf : ∀ t ∈ s.tasks, t.WellFormed) : s.Continues s' := by
  induction lapse with
  | refl => exact .refl s
  | settle _ h o ih => exact ih.trans (finish_continues (ih.wellFormed wf) h o)
  | outside _ d v counts ih => exact ⟨ih.evolves, ih.resumed_eq⟩

theorem Lapse.finishAll (lapse : Lapse s s') (hs : List Handle) (o : Outcome) :
    Lapse s (s'.finishAll hs o) := by
  unfold Scheduler.finishAll
  induction hs generalizing s' with
  | nil => exact lapse
  | cons h hs ih => exact ih (lapse.settle h o)

section
variable [NameStore σ] [Dispatcher δ] [Validator ν]

theorem perform_continues (wf : ∀ t ∈ s.tasks, t.WellFormed) (c : Call) : s.Continues (s.perform c) := by
  refine ⟨(perform_evolves s wf c fun _ _ => trivial).1, ?_⟩
  refine perform_keeps (P := fun u => u.resumed = s.resumed) (fun u report h => h) (fun u a report h => ?_)
    rfl c
  rcases u.schedule_cases a report with ⟨window, he, -⟩ | ⟨reason, he, -⟩
  · rw [he]
    exact h
  · rw [he]
    exact h

theorem Reaches.continues (run : Reaches .any s s') (wf : ∀ t ∈ s.tasks, t.WellFormed) :
    s.Continues s' := by
  induction run with
  | refl => exact .refl s
  | tail _ step ih =>
    have wf' := ih.wellFormed wf
    refine ih.trans ?_
    cases step with
    | call c _ => exact perform_continues wf' c
    | settle _ _ => exact finish_continues wf' _ _
    | outside d v counts => exact ⟨.refl .., rfl⟩

end

theorem new_resumed (plan : Plan) (tasks : List Task) (gate : Gate) (log : FailoverLog σ) (d : δ) (v : ν) :
    (Scheduler.new plan tasks gate log d v).resumed ≤
      (Scheduler.new plan tasks gate log d v).summary.succeeded := by
  simp only [Scheduler.new, summary, List.countP_map]
  refine List.countP_mono_left fun t _ known => ?_
  rw [Function.comp_apply, if_pos known]
  rfl

theorem Continues.resumed_le (h : s.Continues s') (wf : ∀ t ∈ s.tasks, t.WellFormed)
    (lags : ∀ t ∈ s.tasks, t.Lags) (start : s.resumed ≤ s.summary.succeeded) :
    s'.resumed ≤ s'.summary.succeeded := by
  rw [h.resumed_eq]
  refine Nat.le_trans start (countP_le_of_forall₂ (fun t t' advances stored => ?_) (h.evolves.advances wf lags))
  rw [beq_iff_eq] at stored ⊢
  rw [advances.progress.eq_of_terminal (by rw [stored]; rfl), stored]

end Scheduler

open Scheduler (Continues Lapse)

namespace Heartbeat

/-! ## The clock between ticks -/

section
variable {σ ν : Type} (interval n : Nat) (s : Scheduler σ PolicyDispatcher ν)

theorem elapse_lapse : Lapse s (elapse interval n s) := by
  unfold elapse
  exact (Lapse.refl.outside _ s.validator s.counts).finishAll _ .succeeded

theorem elapse_shutdowns : (elapse interval n s).dispatcher.shutdowns = s.dispatcher.shutdowns := by
  simp only [elapse, PolicyDispatcher.advance]
  rw [Scheduler.finishAll_eq]

end

variable {σ δ ν : Type} [NameStore σ] [Dispatcher δ] [Validator ν]

/-! ## The last tick -/

def states (between : Nat → Scheduler σ δ ν → Scheduler σ δ ν) :
    Scheduler σ δ ν → Nat → Nat → Scheduler σ δ ν
  | s, _, 0 => s
  | s, ticks, n + 1 => states between (between (ticks + 1) s.tick.1) (ticks + 1) n

/-- The tick of `s` gives a report by which not all is finished. -/
def GoesOn (s : Scheduler σ δ ν) : Prop :=
  ∃ s' report, s.tick = (s', .ok report) ∧ report.allFinished = false

inductive Ends (s : Scheduler σ δ ν) : Scheduler σ δ ν → Option Fault → Prop
  | finished {s' : Scheduler σ δ ν} {report : Report} (tick : s.tick = (s', .ok report))
      (finished : report.allFinished = true) : Ends s s'.shutdown none
  | fault {s' : Scheduler σ δ ν} {f : Fault} (tick : s.tick = (s', .error f)) : Ends s s' (some f)

section
variable (between : Nat → Scheduler σ δ ν → Scheduler σ δ ν) {s : Scheduler σ δ ν}

theorem run_of_goesOn {s' : Scheduler σ δ ν} {report : Report} (tick : s.tick = (s', .ok report))
    (going : report.allFinished = false) (ticks : Nat) (shown : List Snapshot) (fuel : Nat) :
    run between s ticks shown (fuel + 1) =
      run between (between (ticks + 1) s') (ticks + 1) (shown ++ report.snapshot) fuel := by
  simp only [run, tick, going, Bool.false_eq_true, if_false]

theorem run_of_ends {s' : Scheduler σ δ ν} {f : Option Fault} (ends : Ends s s' f) (ticks : Nat)
    (shown : List Snapshot) (fuel : Nat) :
    (run between s ticks shown (fuel + 1)).scheduler = s' ∧
      (run between s ticks shown (fuel + 1)).outcome = some (stop s' (ticks + 1) f) := by
  cases ends with
  | finished tick finished =>
    simp only [run, tick, finished, if_true, and_self]
  | fault tick =>
    simp only [run, tick, and_self]

theorem goesOn_or_ends (s : Scheduler σ δ ν) : GoesOn s ∨ ∃ s' f, Ends s s' f := by
  cases tick : s.tick with
  | mk s' result =>
    cases result with
    | error f => exact Or.inr ⟨s', some f, .fault tick⟩
    | ok report =>
      cases finished : report.allFinished with
      | false => exact Or.inl ⟨s', report, tick, finished⟩
      | true => exact Or.inr ⟨_, none, .finished tick finished⟩

/-- A loop that has stopped did so at its first tick that does not go on. -/
theorem ends_of_stopped {fuel ticks : Nat} {shown : List Snapshot} {c : Conclusion}
    (stopped : (run between s ticks shown fuel).outcome = some c) : ∃ n < fuel,
      (∀ m < n, GoesOn (states between s ticks m)) ∧
      Ends (states between s ticks n) (run between s ticks shown fuel).scheduler c.fault ∧
      c = stop (run between s ticks shown fuel).scheduler (ticks + n + 1) c.fault := by
  induction fuel generalizing s ticks shown with
  | zero => cases stopped
  | succ fuel ih =>
    rcases goesOn_or_ends s with goes | ⟨s', f, ends⟩
    · obtain ⟨s', report, tick, going⟩ := goes
      obtain rfl : s.tick.1 = s' := congrArg Prod.fst tick
      rw [run_of_goesOn between tick going] at stopped ⊢
      obtain ⟨n, lt, before, last, same⟩ := ih stopped
      rw [Nat.add_assoc ticks 1 n, Nat.add_comm 1 n] at same
      refine ⟨n + 1, by omega, fun m hm => ?_, last, same⟩
      cases m with
      | zero => exact ⟨_, report, tick, going⟩
      | succ m => exact before m (by omega)
    · obtain ⟨left, outcome⟩ := run_of_ends between ends ticks shown fuel
      rw [outcome] at stopped
      obtain rfl := Option.some.inj stopped
      rw [left]
      exact ⟨0, by omega, nofun, ends, rfl⟩

/-- A loop stops, given time, if any of its ticks does not go on. -/
theorem stopped_of_ends {n ticks : Nat} {s' : Scheduler σ δ ν} {f : Option Fault}
    (ends : Ends (states between s ticks n) s' f) (shown : List Snapshot) :
    ∃ fuel c, (run between s ticks shown fuel).outcome = some c := by
  induction n generalizing s ticks shown with
  | zero => exact ⟨1, _, (run_of_ends between ends ticks shown 0).2⟩
  | succ n ih =>
    rcases goesOn_or_ends s with ⟨s₁, report, tick, going⟩ | ⟨s₁, f₁, first⟩
    · obtain rfl : s.tick.1 = s₁ := congrArg Prod.fst tick
      obtain ⟨fuel, c, stopped⟩ := ih ends (shown ++ report.snapshot)
      exact ⟨fuel + 1, c, by rw [run_of_goesOn between tick going]; exact stopped⟩
    · exact ⟨1, _, (run_of_ends between first ticks shown 0).2⟩

end

/-! ## What the last tick leaves behind -/

namespace Ends

variable {s s' : Scheduler σ δ ν} {f : Option Fault}

theorem left_cases (ends : Ends s s' f) :
    (f = none ∧ s' = s.tick.1.shutdown) ∨ (f ≠ none ∧ s' = s.tick.1) := by
  cases ends with
  | finished tick _ => exact Or.inl ⟨rfl, by rw [tick]⟩
  | fault tick => exact Or.inr ⟨Option.some_ne_none _, by rw [tick]⟩

variable (ends : Ends s s' f) (wf : ∀ t ∈ s.tasks, t.WellFormed)
include ends wf

theorem continues : s.Continues s' := by
  have ticked := Scheduler.perform_continues wf .tick
  rcases ends.left_cases with ⟨-, rfl⟩ | ⟨-, rfl⟩
  · exact ⟨ticked.evolves, ticked.resumed_eq⟩
  · exact ticked

theorem calls_eq {calls : δ → Nat} (submits : ∀ d u, calls (Dispatcher.submit d u).1 = calls d)
    (shuts : ∀ d, calls (Dispatcher.shutdown d) = calls d + 1) :
    calls s'.dispatcher = calls s.dispatcher + if f = none then 1 else 0 := by
  have ticked : calls s.tick.1.dispatcher = calls s.dispatcher :=
    (Scheduler.perform_exchange s wf .tick).calls_eq submits
  rcases ends.left_cases with ⟨done, rfl⟩ | ⟨faulty, rfl⟩
  · rw [if_pos done, ← ticked]
    exact shuts s.tick.1.dispatcher
  · rw [if_neg faulty]
    exact ticked

theorem settled (done : f = none) :
    ∀ t ∈ s'.tasks, t.refresh = t ∧ (t.progress = .succeeded ∨ t.progress = .failed) := by
  cases ends with
  | finished tick finished =>
    obtain ⟨refreshed, terminal⟩ := Scheduler.tick_of_allFinished wf tick finished
    intro t ht
    constructor
    · obtain ⟨t₀, -, rfl⟩ := List.mem_map.mp (refreshed ▸ ht)
      exact t₀.refresh_refresh
    · exact Progress.isTerminal_iff.mp (terminal t ht)
  | fault tick => cases done

theorem stops {g : Fault} (faulty : f = some g) :
    Stops s'.tasks ((s.moments .tick).map (·.request)) (some g) := by
  have stops := Scheduler.perform_stops s wf .tick
  cases ends with
  | finished tick finished => cases faulty
  | fault tick =>
    obtain rfl := Option.some.inj faulty
    rw [Scheduler.fault?, Scheduler.perform, tick] at stops
    exact stops

theorem unfinished {g : Fault} (faulty : f = some g) : ∃ t ∈ s'.tasks, ¬t.Done := by
  obtain ⟨-, -, -, -, -, left⟩ := (ends.stops wf faulty).split
  exact left

theorem succeeded_iff (lags : ∀ t ∈ s'.tasks, t.Lags) :
    (∀ t ∈ s'.tasks, t.progress = .succeeded) ↔ ∀ t ∈ s'.tasks, t.Done := by
  have wf' := (ends.continues wf).wellFormed wf
  refine ⟨fun stored t ht => (lags t ht).done (wf' t ht) (stored t ht), fun done t ht => ?_⟩
  cases hf : f with
  | none =>
    have current := (ends.settled wf hf t ht).1
    rw [← current]
    exact (Task.progress_refresh_eq_succeeded_iff (wf' t ht).nonempty).mpr (done t ht)
  | some g =>
    obtain ⟨u, hu, undone⟩ := ends.unfinished wf hf
    exact absurd (done u hu) undone

theorem clean_iff (lags : ∀ t ∈ s'.tasks, t.Lags) (ticks : Nat) :
    (stop s' ticks f).isClean = true ↔ ∀ t ∈ s'.tasks, t.progress = .succeeded := by
  cases hf : f with
  | none =>
    have none_failed : (stop s' ticks none).isClean = true ↔ ∀ t ∈ s'.tasks, t.progress ≠ .failed := by
      simp [stop, Conclusion.isClean, Scheduler.summary, List.countP_eq_zero]
    refine none_failed.trans (forall₂_congr fun t ht => ?_)
    rcases (ends.settled wf hf t ht).2 with succeeded | failed
    · simp [succeeded]
    · simp [failed]
  | some g =>
    refine iff_of_false nofun fun all => ?_
    obtain ⟨t, ht, undone⟩ := ends.unfinished wf hf
    exact undone ((ends.succeeded_iff wf lags).mp all t ht)

theorem tally (done : f = none) :
    s'.summary.succeeded + s'.summary.failed = s'.summary.total := by
  unfold Scheduler.summary
  have others : s'.tasks.countP (fun t => t.progress == .failed) =
      s'.tasks.countP fun t => ¬(t.progress == .succeeded) = true := by
    refine List.countP_congr fun t ht => ?_
    rcases (ends.settled wf done t ht).2 with succeeded | failed
    · simp [succeeded]
    · simp [failed]
  dsimp only
  rw [others]
  exact (List.length_eq_countP_add_countP _).symm

end Ends

section
variable {between : Nat → Scheduler σ δ ν → Scheduler σ δ ν} (lapses : ∀ n s, Lapse s (between n s))
  {s : Scheduler σ δ ν} (wf : ∀ t ∈ s.tasks, t.WellFormed) (ticks n : Nat)
include lapses wf

theorem states_continues : s.Continues (states between s ticks n) := by
  induction n generalizing s ticks with
  | zero => exact .refl s
  | succ n ih =>
    have ticked := Scheduler.perform_continues wf .tick
    have lapsed := (lapses (ticks + 1) s.tick.1).continues (ticked.wellFormed wf)
    have here := ticked.trans lapsed
    exact here.trans (ih (here.wellFormed wf) (ticks + 1))

theorem states_calls {calls : δ → Nat} (submits : ∀ d u, calls (Dispatcher.submit d u).1 = calls d)
    (idle : ∀ n s, calls (between n s).dispatcher = calls s.dispatcher) :
    calls (states between s ticks n).dispatcher = calls s.dispatcher := by
  induction n generalizing s ticks with
  | zero => rfl
  | succ n ih =>
    have ticked : calls s.tick.1.dispatcher = calls s.dispatcher :=
      (Scheduler.perform_exchange s wf .tick).calls_eq submits
    have wf' := (Scheduler.perform_continues wf .tick).wellFormed wf
    have lapsed := (lapses (ticks + 1) s.tick.1).continues wf'
    rw [states, ih (lapsed.wellFormed wf'), idle]
    exact ticked

end

/-- From any core and with any completions between its ticks, the loop stops if one of its ticks
finishes or faults, and then at the first that does, which is the last it counts. A fault is what the
last request of that tick came back with. The dispatcher is shut down once if there is no fault and
else not at all, and the conclusion is clean exactly if every task has succeeded. -/
theorem concludes {tasks : List Task} (fresh : ∀ t ∈ tasks, t.Fresh) {plan : Plan} {gate : Gate}
    {log : FailoverLog σ} {d : δ} {v : ν} {s : Scheduler σ δ ν}
    (reached : Scheduler.Reaches .any (Scheduler.new plan tasks gate log d v) s)
    {between : Nat → Scheduler σ δ ν → Scheduler σ δ ν} (lapses : ∀ n s, Lapse s (between n s)) :
    ((∃ fuel c, (run between s 0 [] fuel).outcome = some c) ↔
      ∃ n s' f, Ends (states between s 0 n) s' f) ∧
    ∀ fuel beat c, run between s 0 [] fuel = beat → beat.outcome = some c →
      (∃ n, c.ticks = n + 1 ∧ (∀ m < n, GoesOn (states between s 0 m)) ∧
        Ends (states between s 0 n) beat.scheduler c.fault ∧
        ∀ f, c.fault = some f → ∃ before q,
          ((states between s 0 n).moments .tick).map (·.request) = before ++ [q] ∧
          ((∃ h e, q = .submit h (.refused e) ∧ f = .dispatch e) ∨
            ∃ owner a payload, q = .validate owner a (.crashed payload) ∧ f = .crash payload ∧
              f.message = "Scheduler loop panicked: " ++ payload.message)) ∧
      (∀ calls : δ → Nat, (∀ d u, calls (Dispatcher.submit d u).1 = calls d) →
        (∀ d, calls (Dispatcher.shutdown d) = calls d + 1) →
        (∀ n s, calls (between n s).dispatcher = calls s.dispatcher) →
        calls beat.scheduler.dispatcher = calls s.dispatcher + if c.fault = none then 1 else 0) ∧
      (c.summary = beat.scheduler.summary ∧ c.snapshot = beat.scheduler.snapshot ∧
        (c.fault = none → c.summary.succeeded + c.summary.failed = c.summary.total ∧
          c.summary.resumed ≤ c.summary.succeeded)) ∧
      (c.isClean = true ↔ ∀ t ∈ beat.scheduler.tasks, t.progress = .succeeded) ∧
      (c.isClean = true ↔ ∀ t ∈ beat.scheduler.tasks, t.Done) := by
  have start := Scheduler.new_wellFormed fresh plan gate log d v
  have begun := reached.continues start
  have wf := begun.wellFormed start
  constructor
  · constructor
    · rintro ⟨fuel, c, stopped⟩
      obtain ⟨n, -, -, ends, -⟩ := ends_of_stopped between stopped
      exact ⟨n, _, _, ends⟩
    · rintro ⟨n, s', f, ends⟩
      exact stopped_of_ends between ends []
  · rintro fuel beat c rfl stopped
    obtain ⟨n, -, before, ends, same⟩ := ends_of_stopped between stopped
    rw [Nat.zero_add] at same
    have onward := states_continues lapses wf 0 n
    have wf_n := onward.wellFormed wf
    have whole := begun.trans (onward.trans (ends.continues wf_n))
    have lags := whole.evolves.lags start (Scheduler.new_lags fresh plan gate log d v)
    have clean := ends.clean_iff wf_n lags (n + 1)
    rw [← same] at clean
    refine ⟨⟨n, congrArg Conclusion.ticks same, before, ends, fun f faulty => ?_⟩, ?_,
      ⟨congrArg Conclusion.summary same, congrArg Conclusion.snapshot same, fun done => ?_⟩, clean,
      clean.trans (ends.succeeded_iff wf_n lags)⟩
    · obtain ⟨earlier, q, split, -, failed, -⟩ := (ends.stops wf_n faulty).split
      refine ⟨earlier, q, split, ?_⟩
      rcases Request.of_fault? failed with refused | ⟨owner, a, payload, crashed, rfl⟩
      · exact Or.inl refused
      · exact Or.inr ⟨owner, a, payload, crashed, rfl, rfl⟩
    · intro calls submits shuts idle
      rw [ends.calls_eq wf_n submits shuts, states_calls lapses wf 0 n submits idle]
    · have resumed := whole.resumed_le start (Scheduler.new_lags fresh plan gate log d v)
        (Scheduler.new_resumed plan tasks gate log d v)
      rw [congrArg Conclusion.summary same]
      exact ⟨ends.tally wf_n done, resumed⟩

theorem oneTable_concludes : ∃ beat c,
    run (elapse 1) (OneTable.start (.succeedAfter 1)) 0 [] 5 = beat ∧ beat.outcome = some c ∧
    c.ticks = 3 ∧ beat.scheduler.dispatcher.shutdowns = 1 ∧ ∀ t ∈ beat.scheduler.tasks, t.Done := by
  have stopped : (run (elapse 1) (OneTable.start (.succeedAfter 1)) 0 [] 5).outcome = some
      ⟨3, ⟨1, 1, 0, 0⟩, [⟨"db.t", .succeeded, [(.createTable, .succeeded), (.compareResults, .succeeded)]⟩],
        none⟩ := by decide
  obtain ⟨-, whenever⟩ := concludes OneTable.tasks_fresh (.refl (a := OneTable.start (.succeedAfter 1)))
    (elapse_lapse 1)
  obtain ⟨-, shut, -, -, done⟩ := whenever 5 _ _ rfl stopped
  have once := shut (·.shutdowns) PolicyDispatcher.submit_shutdowns (fun _ => rfl) (elapse_shutdowns 1)
  exact ⟨_, _, rfl, stopped, rfl, once, done.mp rfl⟩

end Heartbeat

end TableMigration
