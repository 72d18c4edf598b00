import TableMigration.Proofs.Exchanges
import TableMigration.Proofs.Liveness
import TableMigration.Proofs.Policies

/-!
# Dispatchers that finish at once

When every unit is finished while it is submitted, nothing runs between requests. One pass over the
plan then carries the first task that has not ended through all its stages: whatever the pass has
left behind of it is done, or the task has failed. So each tick ends the next task in order, and as
many ticks as there are tasks end them all.
-/

namespace TableMigration

def Conduct.prompt : Conduct where
  answers
    | .submit _ .running => False
    | q => Conduct.faultless.answers q
  settles _ _ _ _ := True
  settles_of_finished _ _ _ := trivial

theorem Conduct.faultless_of_prompt {q : Request} (h : Conduct.prompt.answers q) :
    Conduct.faultless.answers q := by
  match q, h with
  | .submit _ (.finished _), h => exact h
  | .validate _ _ _, h => exact h

/-! ## Nothing runs -/

namespace Task

variable {t t' : Task}

theorem handed_nil_iff : t.Handed 0 [] ↔ t.Still :=
  ⟨fun h s hs u hu running => List.not_mem_nil (h s hs u hu running), Still.handed⟩

theorem Still.refresh (h : t.Still) : t.refresh.Still :=
  handed_nil_iff.mp h.handed.refresh

theorem Still.judge (h : t.Still) {s : Stage} (hs : s ∈ t.stages) (p : Progress) :
    (t.replace { s with progress := p }).Still :=
  handed_nil_iff.mp (h.handed.judge hs p)

theorem Still.finish (h : t.Still) (wf : t.WellFormed) {a : Action} {id : String}
    (started : t.start a id = .ok (some t')) (o : Outcome) : (t'.finish a id o).1.Still := by
  have wf' := wf.start started
  obtain ⟨s, hs, rfl, new, rfl⟩ := start_eq_some started
  have found := mem_replace_self hs (s.setUnit_action id .running)
  have running := Stage.unitProgress?_setUnit new .running
  have finished := finish_of_running wf' found running o
  rw [Stage.setUnit_action] at finished
  rw [finished]
  intro b hb u hu
  rcases mem_replace hb with rfl | ⟨hb, other⟩
  · rcases Stage.mem_units_setUnit hu with rfl | ⟨hu, ne⟩
    · cases o <;> nofun
    · rcases Stage.mem_units_setUnit hu with rfl | ⟨hu, -⟩
      · exact absurd rfl ne
      · exact h s hs u hu
  · rcases mem_replace hb with rfl | ⟨hb, -⟩
    · exact absurd rfl other
    · exact h b hb u hu

end Task

namespace Round

variable {σ δ ν : Type} [Dispatcher δ] {owner : Nat} {a : Action} {t : Task}

theorem submit_still (wf : t.WellFormed) (h : t.Still) (r : Round σ δ ν) (ids : List String)
    (conduct : ∀ m ∈ submitMoments owner a t r.dispatcher ids, Conduct.prompt.answers m.2) :
    (r.submit owner a t ids).1.Still := by
  fun_induction Round.submit owner a t r ids with
  | case1 t r => exact h
  | case2 t r id ids f hs => exact h
  | case3 t r id ids hs ih =>
    simp only [submitMoments, hs] at conduct
    exact ih wf h conduct
  | case4 t r id ids t' hs g d r' e hd =>
    rw [submitMoments_of_start hs hd, List.forall_mem_cons] at conduct
    exact conduct.1.elim
  | case5 t r id ids t' hs g d r' admitted hd ih =>
    rw [submitMoments_of_start hs hd, List.forall_mem_cons] at conduct
    exact conduct.1.elim
  | case6 t r id ids t' hs g d r' admitted o hd ih =>
    rw [submitMoments_of_start hs hd, List.forall_mem_cons] at conduct
    exact ih ((wf.start hs).finish a id o) (h.finish wf hs o) conduct.2

theorem admitTask_still [NameStore σ] [Validator ν] (wf : t.WellFormed) (h : t.Still)
    (r : Round σ δ ν) (conduct : ∀ m ∈ admitMoments owner a t r, Conduct.prompt.answers m.2) :
    (r.admitTask owner a t).1.Still := by
  refine admitTask_keeps (P := Task.Still) (·.refresh) (fun p h hs => h.judge hs p) wf owner a r h
    fun s turn asked => ?_
  exact submit_still (wf.of_shape (Task.shape_refresh t)) h.refresh r s.newIds (asked ▸ conduct)

end Round

/-! ## One pass -/

theorem Task.Moves.stage_done {w : Conduct} {owner : Nat} {t t' : Task} (wf : t.WellFormed)
    (moves : t.Moves w owner t') {a : Action} (h : ∀ s ∈ t.stages, s.action = a → s.Done) :
    ∀ s ∈ t'.stages, s.action = a → s.Done :=
  moves.keeps_stages (P := fun s => s.action = a → s.Done) wf
    (fun _ done ha => Stage.done_refresh.mpr (done ha))
    (fun _ ch done ha => absurd (done (ch.action_eq ▸ ha)) ch.not_done) h

namespace Scheduler

variable {σ δ ν : Type}

structure Quiet (s : Scheduler σ δ ν) (i : Nat) : Prop where
  runnable : s.Runnable
  still : ∀ t ∈ s.tasks, t.Still
  earlier : ∀ j < i, ∀ u, s.tasks[j]? = some u → u.Ended

/-- With these actions still to come in a pass, the task at position `i` has ended, or its stages
for all other actions are done. -/
structure Leads (s : Scheduler σ δ ν) (i : Nat) (rest : List Action) : Prop extends s.Quiet i where
  passed : ∀ t, s.tasks[i]? = some t → t.Ended ∨ ∀ b ∈ t.stages, b.action ∉ rest → b.Done

theorem Quiet.next {s : Scheduler σ δ ν} {i : Nat} (h : s.Quiet i)
    (ended : ∀ t, s.tasks[i]? = some t → t.Ended) : s.Quiet (i + 1) := by
  refine ⟨h.runnable, h.still, fun j lt u hu => ?_⟩
  rcases Nat.lt_succ_iff_lt_or_eq.mp lt with lt | rfl
  · exact h.earlier j lt u hu
  · exact ended u hu

section
variable [NameStore σ] [Dispatcher δ] [Validator ν] {s : Scheduler σ δ ν} {i : Nat}

theorem Quiet.perform (h : s.Quiet i) (c : Call)
    (conduct : ∀ m ∈ s.moments c, Conduct.prompt.answers m.request) : (s.perform c).Quiet i := by
  have wf := h.runnable.wellFormed
  have run : Reaches .faultless s (s.perform c) :=
    .single (.call c fun m hm => Conduct.faultless_of_prompt (conduct m hm))
  refine ⟨run.runnable h.runnable, ?_, fun j lt u hu => ?_⟩
  · exact perform_keeps_tasks (P := Task.Still) (fun _ _ r wf still => Round.admitTask_still wf still r)
      (fun _ still => still.refresh) s wf c conduct h.still
  · obtain ⟨t, ht, moves⟩ := (run.evolves wf).origin hu
    exact moves.ended (wf t (List.mem_of_getElem? ht)) (h.earlier j lt t ht)

theorem Leads.schedule {a : Action} {rest : List Action} (h : s.Leads i (a :: rest))
    (ascending : ∀ b ∈ rest, a.rank < b.rank) (report : Report)
    (conduct : ∀ m ∈ s.scheduleMoments a report, Conduct.prompt.answers m.request) :
    (s.schedule a report).1.Leads i rest := by
  have faultless := fun m hm => Conduct.faultless_of_prompt (conduct m hm)
  have wf := h.runnable.wellFormed
  have quiet : (s.schedule a report).1.Quiet i := h.toQuiet.perform (.schedule a report) conduct
  have evolves := (schedule_evolves s wf a report faultless).1
  refine ⟨quiet, fun t' at_i' => ?_⟩
  obtain ⟨t, at_i, moves⟩ := evolves.origin at_i'
  have wf_t := wf t (List.mem_of_getElem? at_i)
  rcases h.passed t at_i with ended | done
  · exact Or.inl (moves.ended wf_t ended)
  · refine or_iff_not_imp_left.mpr fun open_ b' hb' behind => ?_
    by_cases ha : b'.action = a
    · obtain rfl := ha
      have present : b'.action ∈ t.actions :=
        Task.actions_eq_of_shape (moves.shape_eq wf_t) ▸ List.mem_map_of_mem hb'
      have cleared : t.Cleared b'.action := fun b hb lt => by
        refine done b hb fun mem => ?_
        rcases List.mem_cons.mp mem with he | mem
        · exact absurd (he ▸ lt) (Nat.lt_irrefl _)
        · exact absurd lt (Nat.lt_asymm (ascending b.action mem))
      have poised := h.runnable.poised h.still at_i h.earlier present cleared
      obtain ⟨u, at_u, c, hc, same, begun⟩ := poised.schedule_begins report faultless
      obtain rfl := Option.some.inj (at_i'.symm.trans at_u)
      have wf' := moves.wellFormed wf_t
      obtain rfl := wf'.eq_of_action hc hb' same
      rcases quiet.runnable.stage_cases quiet.still at_i' hc with new | done | failed
      · exact absurd begun (Stage.liveProgress_eq_new_iff.mp new)
      · exact done
      · exact absurd ((Task.ended_iff wf').mpr (Or.inr ⟨c, hc, failed⟩)) open_
    · refine moves.stage_done wf_t (fun b hb he => done b hb fun mem => ?_) b' hb' rfl
      rcases List.mem_cons.mp mem with first | mem
      · exact ha (he.symm.trans first)
      · exact behind (he ▸ mem)

theorem Leads.scheduleAll {rest : List Action} (ascending : rest.Pairwise (·.rank < ·.rank))
    (h : s.Leads i rest) (report : Report)
    (conduct : ∀ m ∈ s.scheduleAllMoments report rest, Conduct.prompt.answers m.request) :
    (s.scheduleAll report rest).1.Leads i [] := by
  refine scheduleAll_induction (R := fun s _ actions ms out => actions.Pairwise (·.rank < ·.rank) →
    s.Leads i actions → (∀ m ∈ ms, Conduct.prompt.answers m.request) → out.1.Leads i [])
    (fun _ _ _ h _ => h) ?_ ?_ rest h.runnable.wellFormed report ascending h conduct
  · intro s a rest report ms out _ _ later ascending h conduct
    obtain ⟨first, ascending⟩ := List.pairwise_cons.mp ascending
    obtain ⟨here, there⟩ := List.forall_mem_append.mp conduct
    exact later ascending (h.schedule first report here) there
  · intro s a rest report f wf fault _ _ conduct
    have completes := (schedule_completes_iff s wf a report).mpr fun m hm =>
      Conduct.faultless_of_prompt (conduct m hm)
    cases fault.symm.trans completes

theorem Quiet.tick (h : s.Quiet i)
    (conduct : ∀ m ∈ s.moments .tick, Conduct.prompt.answers m.request) : s.tick.1.Quiet (i + 1) := by
  have quiet : s.tick.1.Quiet i := h.perform .tick conduct
  refine quiet.next ?_
  have seen : (s.observe .empty).1.Quiet i := h.perform (.observe .empty) (List.forall_mem_nil _)
  rcases s.tick_cases with ⟨all, -, he⟩ | ⟨s', result, done, hm, he⟩
  · rw [he]
    intro t ht
    have mem := List.mem_of_getElem? ht
    exact (seen.runnable.truthful t mem).terminal (all t mem)
  · rw [hm] at conduct
    rw [he]
    have leads : (s.observe .empty).1.Leads i s.plan.actions := by
      refine ⟨seen, fun t ht => Or.inr fun b hb outside => absurd ?_ outside⟩
      exact seen.runnable.planned t (List.mem_of_getElem? ht) b.action (List.mem_map_of_mem hb)
    have led := leads.scheduleAll s.plan.ascending (s.observe .empty).2.1 conduct
    rw [done] at led
    intro t ht
    have wf := led.runnable.wellFormed t (List.mem_of_getElem? ht)
    exact (led.passed t ht).elim id fun done =>
      (Task.ended_iff wf).mpr (Or.inl fun b hb => done b hb List.not_mem_nil)

/-! ## Tick after tick -/

def ticks (s : Scheduler σ δ ν) : Nat → Scheduler σ δ ν
  | 0 => s
  | k + 1 => (s.ticks k).tick.1

theorem Quiet.ticks {k : Nat} (h : s.Quiet 0)
    (conduct : ∀ j < k, ∀ m ∈ (s.ticks j).moments .tick, Conduct.prompt.answers m.request) :
    (s.ticks k).Quiet k := by
  induction k with
  | zero => exact h
  | succ k ih =>
    exact (ih fun j lt => conduct j (Nat.lt_succ_of_lt lt)).tick (conduct k (Nat.lt_succ_self k))

theorem ticks_evolves (s : Scheduler σ δ ν) (wf : ∀ t ∈ s.tasks, t.WellFormed) (k : Nat) :
    Evolves .any 0 s.tasks (s.ticks k).tasks := by
  induction k with
  | zero => exact .refl ..
  | succ k ih =>
    exact ih.trans (perform_evolves (s.ticks k) (ih.wellFormed wf) .tick fun _ _ => trivial).1

/-- With the actions of all tasks in the plan and a ceiling of at least one for every gated action,
and every unit finished while it is submitted, the first `k` tasks are terminal after `k` ticks,
and the tick after as many as there are tasks reports that all is finished. -/
theorem finished_in_order {tasks : List Task} (fresh : ∀ t ∈ tasks, t.Fresh) {plan : Plan} {gate : Gate}
    (planned : ∀ t ∈ tasks, ∀ a ∈ t.actions, a ∈ plan.actions)
    (ceilings : ∀ a ∈ plan.gated, ∃ c, gate.ceiling a = some c ∧ 1 ≤ c) (log : FailoverLog σ) (d : δ)
    (v : ν) (k : Nat)
    (conduct : ∀ j < k, ∀ m ∈ ((Scheduler.new plan tasks gate log d v).ticks j).moments .tick,
      Conduct.prompt.answers m.request) :
    ((Scheduler.new plan tasks gate log d v).ticks k).tasks.map (·.name) = tasks.map (·.name) ∧
    (∀ t ∈ ((Scheduler.new plan tasks gate log d v).ticks k).tasks.take k, t.isTerminal = true) ∧
    (tasks.length ≤ k → ((Scheduler.new plan tasks gate log d v).ticks k).Finishes) := by
  have quiet : (Scheduler.new plan tasks gate log d v).Quiet 0 :=
    ⟨new_runnable fresh planned ceilings log d v, new_still fresh plan gate log d v, nofun⟩
  have ends := quiet.ticks conduct
  have names : ((Scheduler.new plan tasks gate log d v).ticks k).tasks.map (·.name) =
      tasks.map (·.name) :=
    (ticks_evolves _ (new_wellFormed fresh plan gate log d v) k).names_eq.trans
      (new_names plan tasks gate log d v)
  refine ⟨names, fun t ht => ?_, fun enough => finishes_of_ended fun t ht => ?_⟩
  · obtain ⟨j, at_j⟩ := List.mem_iff_getElem?.mp ht
    have lt : j < k := by
      by_contra beyond
      rw [List.getElem?_take, if_neg beyond] at at_j
      cases at_j
    rw [List.getElem?_take, if_pos lt] at at_j
    have ended := ends.earlier j lt t at_j
    -- the last tick came to its end, so that what it has stored is up to date
    cases k with
    | zero => cases lt
    | succ k =>
      have before := quiet.ticks fun j lt => conduct j (Nat.lt_succ_of_lt lt)
      have refreshed := tick_refreshed _ before.runnable.wellFormed
        (fun m hm => Conduct.faultless_of_prompt (conduct k (Nat.lt_succ_self k) m hm)) t
        (List.mem_of_getElem? at_j)
      rwa [Task.Ended, refreshed] at ended
  · obtain ⟨j, at_j⟩ := List.mem_iff_getElem?.mp ht
    obtain ⟨lt, -⟩ := List.getElem?_eq_some_iff.mp at_j
    have count := congrArg List.length names
    rw [List.length_map, List.length_map] at count
    exact ends.earlier j (by omega) t at_j

end

end Scheduler

/-! ## Policies that finish at once -/

def PolicyDispatcher.Prompt (d : PolicyDispatcher) : Prop :=
  d.policy.refuses = [] ∧ ∀ h, d.policy.completion h = .succeed ∨ d.policy.completion h = .fail

theorem PolicyDispatcher.Prompt.submit {d d' : PolicyDispatcher} (prompt : d.Prompt) {h : Handle}
    {receipt : Receipt} (served : Dispatcher.submit d h = (d', receipt)) :
    (∃ o, receipt = .finished o) ∧ d'.Prompt := by
  have serves := submit_serves served
  have prompt' : d'.Prompt := by
    unfold Prompt
    rw [serves.policy]
    exact prompt
  rw [serves.answer, Policy.receipt_of_willing prompt.1]
  rcases prompt.2 h with completion | completion
  · rw [completion]
    exact ⟨⟨.succeeded, rfl⟩, prompt'⟩
  · rw [completion]
    exact ⟨⟨.failed, rfl⟩, prompt'⟩

theorem Exchange.prompt {counts : RowCounts} {k : Nat} {x y : Outside PolicyDispatcher FixedValidator}
    {ms : List Moment} (exchange : Exchange counts k x ms y) (policy : x.dispatcher.Prompt)
    (calm : x.validator.crashing = []) : (∀ m ∈ ms, Conduct.prompt.answers m.request) ∧
      y.dispatcher.Prompt ∧ y.validator.crashing = [] := by
  induction exchange with
  | nil x => exact ⟨List.forall_mem_nil _, policy, calm⟩
  | submit served _ ih =>
    obtain ⟨⟨o, rfl⟩, policy'⟩ := policy.submit served
    obtain ⟨later, rest⟩ := ih policy' calm
    exact ⟨List.forall_mem_cons.mpr ⟨trivial, later⟩, rest⟩
  | @validate x _ _ _ _ t _ verdict _ _ judged _ ih =>
    obtain ⟨rfl, rfl⟩ := Prod.mk.inj judged
    obtain ⟨later, rest⟩ := ih policy calm
    refine ⟨List.forall_mem_cons.mpr ⟨?_, later⟩, rest⟩
    dsimp only
    rw [FixedValidator.verdict_of_calm calm]
    cases x.validator.failing.contains t.name <;> trivial

namespace Scheduler

theorem ticks_prompt {σ : Type} [NameStore σ] {s : Scheduler σ PolicyDispatcher FixedValidator}
    (wf : ∀ t ∈ s.tasks, t.WellFormed) (policy : s.dispatcher.Prompt)
    (calm : s.validator.crashing = []) (k : Nat) :
    ∀ m ∈ (s.ticks k).moments .tick, Conduct.prompt.answers m.request := by
  have asked : ∀ k, Exchange (s.ticks k).counts 0 (s.ticks k).outside ((s.ticks k).moments .tick)
      (s.ticks (k + 1)).outside := fun k =>
    perform_exchange (s.ticks k) ((ticks_evolves s wf k).wellFormed wf) .tick
  have kept : (s.ticks k).dispatcher.Prompt ∧ (s.ticks k).validator.crashing = [] := by
    induction k with
    | zero => exact ⟨policy, calm⟩
    | succ k ih => exact ((asked k).prompt ih.1 ih.2).2
  exact ((asked k).prompt kept.1 kept.2).1

theorem twoTables_in_order :
    (∃ t, ((OneSlot.following .succeed).ticks 1).tasks = [t, OneSlot.second] ∧ t.isTerminal = true) ∧
      ((OneSlot.following .succeed).ticks 2).Finishes := by
  have wf : ∀ t ∈ (OneSlot.following .succeed).tasks, t.WellFormed :=
    new_wellFormed OneSlot.tasks_fresh _ _ _ _ _
  have conduct := ticks_prompt wf ⟨rfl, fun _ => Or.inl rfl⟩ rfl
  have ordered := fun k => finished_in_order OneSlot.tasks_fresh OneSlot.planned OneTable.ceilings
    (.openOn (⟨[]⟩ : MemoryStore)) (.ofPolicy ⟨.succeed, .empty, [], []⟩ : PolicyDispatcher)
    (⟨[], [], []⟩ : FixedValidator) k fun j _ => conduct j
  exact ⟨⟨_, rfl, (ordered 1).2.1 _ (List.mem_singleton_self _)⟩, (ordered 2).2.2 (Nat.le_refl 2)⟩

end Scheduler

end TableMigration
