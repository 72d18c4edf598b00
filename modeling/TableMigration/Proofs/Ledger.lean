import TableMigration.Proofs.Once
import TableMigration.Proofs.Policies

/-!
# Reports as a ledger

The reports of a run without faults, put one after another, are the log of the dispatcher, the log of
the validator and what the store was added. Each unit is in them once, and so is each verdict.
-/

namespace TableMigration

/-! ## What a call adds to the logs -/

def Outside.Backed (x : Outside PolicyDispatcher FixedValidator) : Prop :=
  (∀ h ∈ x.dispatcher.held, h ∈ x.handles) ∧ ∀ u ∈ x.dispatcher.timed, u.2 ∈ x.handles

structure Logs (x : Outside PolicyDispatcher FixedValidator) (qs : List (Task × Request))
    (y : Outside PolicyDispatcher FixedValidator) : Prop where
  submitted : y.dispatcher.submitted = x.dispatcher.submitted ++ qs.filterMap (·.2.admission?)
  calls : y.validator.calls =
    x.validator.calls ++ (qs.filterMap fun q => q.2.judgement? q.1).map (·.1)
  failing : y.validator.failing = x.validator.failing
  verdicts : ∀ p ∈ qs.filterMap (fun q => q.2.judgement? q.1), p.2 = !x.validator.failing.contains p.1
  backed : x.Backed → y.Backed

namespace Logs

variable {x y z : Outside PolicyDispatcher FixedValidator} {qs qs' : List (Task × Request)}

theorem refl (x : Outside PolicyDispatcher FixedValidator) : Logs x [] x :=
  ⟨(List.append_nil _).symm, (List.append_nil _).symm, rfl, List.forall_mem_nil _, id⟩

theorem append (h : Logs x qs y) (h' : Logs y qs' z) : Logs x (qs ++ qs') z := by
  refine ⟨?_, ?_, h'.failing.trans h.failing, ?_, fun backed => h'.backed (h.backed backed)⟩
  · rw [h'.submitted, h.submitted, List.filterMap_append, List.append_assoc]
  · rw [h'.calls, h.calls, List.filterMap_append, List.map_append, List.append_assoc]
  · rw [List.filterMap_append, List.forall_mem_append]
    refine ⟨h.verdicts, ?_⟩
    rw [← h.failing]
    exact h'.verdicts

theorem submit {h : Handle} {d : PolicyDispatcher} {receipt : Receipt} (t : Task)
    (served : Dispatcher.submit x.dispatcher h = (d, receipt)) :
    Logs x [(t, .submit h receipt)] { x with dispatcher := d, handles := x.handles ++ [h] } := by
  have serves := PolicyDispatcher.submit_serves served
  have last : h ∈ x.handles ++ [h] := List.mem_append_right _ (List.mem_singleton_self h)
  refine ⟨?_, (List.append_nil _).symm, rfl, List.forall_mem_nil _, fun backed => ⟨fun g hg => ?_, fun v hv => ?_⟩⟩
  · rw [serves.submitted]
    cases receipt <;> rfl
  · rcases serves.mem_held hg with hg | rfl
    · exact List.mem_append_left _ (backed.1 g hg)
    · exact last
  · rcases serves.timed v hv with hv | same
    · exact List.mem_append_left _ (backed.2 v hv)
    · exact same ▸ last

theorem validate {counts : RowCounts} {t : Task} {v : FixedValidator} {verdict : Verdict} {owner : Nat}
    {a : Action} (judged : Validator.validate x.validator counts t = (v, verdict))
    (answers : Conduct.faultless.answers (.validate owner a verdict)) :
    Logs x [(t, .validate owner a verdict)] { x with validator := v } := by
  obtain ⟨rfl, rfl⟩ := Prod.mk.inj judged
  unfold FixedValidator.verdict at answers ⊢
  by_cases crashes : x.validator.crashing.contains t.name = true
  · rw [if_pos crashes] at answers
    exact answers.elim
  · rw [if_neg crashes]
    cases failing : x.validator.failing.contains t.name with
    | true =>
      refine ⟨(List.append_nil _).symm, rfl, rfl, List.forall_mem_singleton.mpr ?_, id⟩
      rw [failing]
      rfl
    | false =>
      refine ⟨(List.append_nil _).symm, rfl, rfl, List.forall_mem_singleton.mpr ?_, id⟩
      rw [failing]
      rfl

end Logs

theorem Exchange.logs {counts : RowCounts} {x y : Outside PolicyDispatcher FixedValidator}
    {ms : List Moment} (exchange : Exchange counts 0 x ms y) (proper : ∀ m ∈ ms, m.Proper)
    (conduct : ∀ m ∈ ms, Conduct.faultless.answers m.request) : Logs x (asked 0 ms) y := by
  induction exchange with
  | nil x => exact .refl x
  | @submit x y ms ts h d receipt served _ ih =>
    obtain ⟨⟨t, at_t, -⟩, later⟩ := List.forall_mem_cons.mp proper
    have here : asked 0 [⟨ts, .submit h receipt⟩] = [(t, .submit h receipt)] := by
      unfold asked
      simp only [List.filterMap_cons, List.filterMap_nil, Nat.sub_zero, at_t, Option.map_some]
    rw [← List.singleton_append, asked_append, here]
    exact (Logs.submit t served).append (ih later (List.forall_mem_cons.mp conduct).2)
  | @validate x y ms ts i t v verdict a subject judged _ ih =>
    have here : asked 0 [⟨ts, .validate (0 + i) a verdict⟩] = [(t, .validate (0 + i) a verdict)] := by
      unfold asked
      simp only [List.filterMap_cons, List.filterMap_nil, Request.owner, Nat.zero_add, Nat.sub_zero,
        subject, Option.map_some]
    obtain ⟨answers, later⟩ := List.forall_mem_cons.mp conduct
    rw [← List.singleton_append, asked_append, here]
    exact (Logs.validate judged answers).append (ih (List.forall_mem_cons.mp proper).2 later)

/-! ## Runs with their reports -/

namespace Scheduler

section
variable {σ ν : Type}

def release (s : Scheduler σ PolicyDispatcher ν) (p : Handle → Bool) (o : Outcome) :
    Scheduler σ PolicyDispatcher ν :=
  { s with dispatcher := (s.dispatcher.release p).2 }.finishAll (s.dispatcher.release p).1 o

def advance (s : Scheduler σ PolicyDispatcher ν) (time : Nat) : Scheduler σ PolicyDispatcher ν :=
  { s with dispatcher := (s.dispatcher.advance time).2 }.finishAll (s.dispatcher.advance time).1
    .succeeded

end

variable {σ : Type} [NameStore σ]

/-- Ticks that each gave a report, and releases between them. -/
inductive Reported (start : Scheduler σ PolicyDispatcher FixedValidator) :
    List Report → Scheduler σ PolicyDispatcher FixedValidator → Prop
  | start : Reported start [] start
  | tick {rs : List Report} {s s' : Scheduler σ PolicyDispatcher FixedValidator} {report : Report}
      (before : Reported start rs s) (ticked : s.tick = (s', .ok report)) :
      Reported start (rs ++ [report]) s'
  | release {rs : List Report} {s : Scheduler σ PolicyDispatcher FixedValidator}
      (before : Reported start rs s) (p : Handle → Bool) (o : Outcome) :
      Reported start rs (s.release p o)
  | advance {rs : List Report} {s : Scheduler σ PolicyDispatcher FixedValidator}
      (before : Reported start rs s) (time : Nat) : Reported start rs (s.advance time)

/-- The reports, the logs and the store agree with all that was asked for. -/
structure Booked (start : Scheduler σ PolicyDispatcher FixedValidator) (rs : List Report)
    (es : List Entry) (s : Scheduler σ PolicyDispatcher FixedValidator) : Prop where
  chronicle : Chronicle start es s
  faultless : ∀ q ∈ requests es, Conduct.faultless.answers q.2
  logs : Logs start.outside (requests es) s.outside
  admitted : rs.flatMap (·.admitted) = (requests es).filterMap (·.2.admission?)
  validations : rs.flatMap (·.validations) = (requests es).filterMap fun q => q.2.judgement? q.1
  recorded : start.log.Adds (rs.flatMap (·.newlyRecorded)) s.log

theorem finishAll_chronicle {start s : Scheduler σ PolicyDispatcher FixedValidator} {es : List Entry}
    (before : Chronicle start es s) {hs : List Handle} (given : ∀ h ∈ hs, h ∈ s.handles) (o : Outcome) :
    ∃ es', Chronicle start (es ++ es') (s.finishAll hs o) ∧ requests es' = [] := by
  induction hs generalizing s es with
  | nil => exact ⟨[], by rwa [List.append_nil], rfl⟩
  | cons h hs ih =>
    obtain ⟨first, rest⟩ := List.forall_mem_cons.mp given
    have same : (s.finish h o).1.handles = s.handles := by rw [finish_eq]
    obtain ⟨es', later, silent⟩ := ih (before.finish first o) (same ▸ rest)
    refine ⟨.reported h o (s.finish h o).2 :: es', ?_, silent⟩
    rwa [List.append_assoc] at later

namespace Booked

variable {start s s' : Scheduler σ PolicyDispatcher FixedValidator} {rs : List Report} {es : List Entry}

theorem tick (h : Booked start rs es s) (wf : ∀ t ∈ start.tasks, t.WellFormed) {report : Report}
    (ticked : s.tick = (s', .ok report)) : ∃ es', Booked start (rs ++ [report]) es' s' := by
  have wf' := h.chronicle.wellFormed wf
  have completes := (tick_completes_iff s wf').mp ⟨report, congrArg Prod.snd ticked⟩
  have proper := (perform_evolves (w := .any) s wf' .tick fun _ _ => trivial).2
  have logs := (perform_exchange s wf' .tick).logs (fun m hm => (proper m hm).2) completes
  have accounts := tick_accounts wf' ticked
  obtain ⟨names, adds, new⟩ := accounts.recorded
  obtain rfl : names = report.newlyRecorded := new.symm
  obtain rfl : s.perform .tick = s' := congrArg Prod.fst ticked
  refine ⟨_, h.chronicle.call .tick, ?_, ?_, ?_, ?_, ?_⟩
  · rw [requests_append, requests_asked, List.forall_mem_append]
    refine ⟨h.faultless, fun q hq => ?_⟩
    obtain ⟨m, hm, same, -⟩ := request_of_mem_asked hq
    exact same ▸ completes m hm
  · rw [requests_append, requests_asked]
    exact h.logs.append logs
  · rw [requests_append, requests_asked, List.flatMap_append, List.flatMap_singleton, h.admitted,
      accounts.admitted, List.filterMap_append]
    rfl
  · rw [requests_append, requests_asked, List.flatMap_append, List.flatMap_singleton, h.validations,
      accounts.validations, List.filterMap_append]
    rfl
  · rw [List.flatMap_append, List.flatMap_singleton]
    exact h.recorded.trans adds

theorem settle (h : Booked start rs es s) {d : PolicyDispatcher} {hs : List Handle} {o : Outcome}
    (given : ∀ g ∈ hs, g ∈ s.handles) (submitted : d.submitted = s.dispatcher.submitted)
    (backed : s.outside.Backed → ({ s.outside with dispatcher := d } : Outside ..).Backed) :
    ∃ es', Booked start rs es' ({ s with dispatcher := d }.finishAll hs o) := by
  have freed := h.chronicle.outside d s.validator s.counts
  obtain ⟨es', later, silent⟩ := finishAll_chronicle freed given o
  have outside : ({ s with dispatcher := d }.finishAll hs o).outside = { s.outside with dispatcher := d } := by
    rw [finishAll_eq]
    rfl
  have log : ({ s with dispatcher := d }.finishAll hs o).log = s.log := by rw [finishAll_eq]
  have same : requests (es ++ es') = requests es := by
    rw [requests_append, silent, List.append_nil]
  refine ⟨es ++ es', later, ?_, ?_, ?_, ?_, ?_⟩
  · rw [same]
    exact h.faultless
  · rw [same]
    have kept := h.logs
    rw [outside]
    exact ⟨submitted.trans kept.submitted, kept.calls, kept.failing, kept.verdicts,
      fun first => backed (kept.backed first)⟩
  · rw [same]
    exact h.admitted
  · rw [same]
    exact h.validations
  · rw [log]
    exact h.recorded

end Booked

theorem Reported.booked {start s : Scheduler σ PolicyDispatcher FixedValidator} {rs : List Report}
    (run : Reported start rs s) (wf : ∀ t ∈ start.tasks, t.WellFormed) (backed : start.outside.Backed) :
    ∃ es, Booked start rs es s := by
  induction run with
  | start => exact ⟨[], .start, List.forall_mem_nil _, .refl _, rfl, rfl, .refl _⟩
  | tick before ticked ih =>
    obtain ⟨es, booked⟩ := ih
    exact booked.tick wf ticked
  | release before p o ih =>
    obtain ⟨es, booked⟩ := ih
    have held := booked.logs.backed backed
    refine booked.settle (fun g hg => held.1 g (List.mem_filter.mp hg).1) rfl fun held => ⟨?_, held.2⟩
    exact fun g hg => held.1 g (List.mem_filter.mp hg).1
  | advance before time ih =>
    obtain ⟨es, booked⟩ := ih
    have held := booked.logs.backed backed
    refine booked.settle (fun g hg => ?_) rfl fun held => ⟨held.1, ?_⟩
    · obtain ⟨u, hu, rfl⟩ := List.mem_map.mp hg
      exact held.2 u (List.mem_filter.mp hu).1
    · exact fun u hu => held.2 u (List.mem_filter.mp hu).1

theorem admissions_of_faultless {qs : List (Task × Request)}
    (faultless : ∀ q ∈ qs, Conduct.faultless.answers q.2) :
    qs.filterMap (·.2.admission?) = (qs.filterMap (·.2.handle?)).map (·.toUnitKey) := by
  rw [List.map_filterMap]
  apply List.filterMap_congr
  intro q hq
  match q, faultless q hq with
  | (_, .submit h .running), _ => rfl
  | (_, .submit h (.finished o)), _ => rfl
  | (_, .validate owner a verdict), _ => rfl

section
variable {tasks : List Task} (fresh : ∀ t ∈ tasks, t.Fresh) {plan : Plan} {gate : Gate}
  {log : FailoverLog σ} {d : PolicyDispatcher} {v : FixedValidator} {rs : List Report}
  {es : List Entry} {s : Scheduler σ PolicyDispatcher FixedValidator}
  (booked : Booked (Scheduler.new plan tasks gate log d v) rs es s)
include fresh booked

theorem Booked.admitted_keys : rs.flatMap (·.admitted) = s.handles.map (·.toUnitKey) := by
  rw [booked.admitted, admissions_of_faultless booked.faultless, ← handles_of_requests,
    booked.chronicle.handles_eq (new_wellFormed fresh plan gate log d v)]
  rfl

variable (distinct : (tasks.map (·.name)).Nodup)
include distinct

theorem Booked.admitted_once : (rs.flatMap (·.admitted)).Nodup := by
  have wf := new_wellFormed fresh plan gate log d v
  have given := booked.chronicle.handles_eq wf
  rw [booked.admitted_keys fresh]
  apply nodup_map_of_injective (booked.chronicle.handed_once wf rfl)
  rw [given]
  intro h hh h' hh'
  rw [← new_names plan tasks gate log d v] at distinct
  exact (booked.chronicle.key_eq_iff wf distinct hh hh').mp

theorem Booked.admitted_count {c : Cell} {name : String} (at_c : (tasks.map (·.name))[c.owner]? = some name)
    (new : (Scheduler.new plan tasks gate log d v).progressAt? c = some .new)
    (left : s.progressAt? c ≠ some .new) :
    (rs.flatMap (·.admitted)).count ⟨name, c.action, c.unit⟩ = 1 := by
  have wf := new_wellFormed fresh plan gate log d v
  have given : s.handles = es.filterMap (·.handle?) := booked.chronicle.handles_eq wf
  have once : (s.handles.map Handle.cell).count c = 1 := by
    rw [given, booked.chronicle.count_handed wf, if_pos ⟨new, left⟩]
  have mem : c ∈ s.handles.map Handle.cell := List.count_pos_iff.mp (once ▸ Nat.one_pos)
  obtain ⟨g, hg, rfl⟩ := List.mem_map.mp mem
  rw [← new_names plan tasks gate log d v] at distinct at_c
  have named := booked.chronicle.handle_named wf g (given ▸ hg)
  obtain rfl : g.task = name := Option.some.inj (named.symm.trans at_c)
  rw [booked.admitted_keys fresh, ← once, List.count, List.count, List.countP_map, List.countP_map]
  apply List.countP_congr
  intro h hh
  rw [Function.comp_apply, Function.comp_apply, beq_iff_eq, beq_iff_eq]
  exact booked.chronicle.key_eq_iff wf distinct (given ▸ hh) (given ▸ hg)

theorem Booked.ended_count {t : Task} (ht : t ∈ s.tasks) (ended : t.liveProgress = .succeeded)
    (unfinished : log.isFinished t.name = false) {b : Stage} (hb : b ∈ t.stages) {id : String}
    (hid : id ∈ b.ids) : (rs.flatMap (·.admitted)).count ⟨t.name, b.action, id⟩ = 1 := by
  have start := new_wellFormed fresh plan gate log d v
  have evolves := booked.chronicle.reaches.evolves start
  obtain ⟨i, at_i⟩ := List.mem_iff_getElem?.mp ht
  obtain ⟨t₀, at_start, moves⟩ := evolves.origin at_i
  have mem := List.mem_of_getElem? at_start
  have wf₀ := start t₀ mem
  have wf := moves.wellFormed wf₀
  -- a task that was not recorded starts as it was made, with all its units new
  have fresh₀ : t₀.Fresh := by
    obtain ⟨u, hu, rfl⟩ := List.mem_map.mp mem
    have name : u.name = t.name := by
      rw [moves.name_eq]
      by_cases recorded : log.isFinished u.name = true
      · rw [if_pos recorded]
        rfl
      · rw [if_neg recorded]
    rw [if_neg (by rw [name, unfinished]; decide)]
    exact fresh u hu
  obtain ⟨b₀, hb₀, action, ids⟩ := Task.exists_stage_of_shape (moves.shape_eq wf₀) hb
  obtain ⟨u₀, hu₀, rfl⟩ := List.mem_map.mp (ids ▸ hid)
  obtain ⟨u, hu, same_id⟩ := List.mem_map.mp hid
  have done := (Task.progress_refresh_eq_succeeded_iff wf.nonempty).mp (t.refresh_progress.trans ended)
  refine booked.admitted_count fresh distinct (c := ⟨i, b.action, u₀.id⟩) ?_ ?_ ?_
  · rw [← new_names plan tasks gate log d v, ← evolves.names_eq, List.getElem?_map, at_i, Option.map_some]
  · rw [← action, progressAt?_of_unit wf₀ at_start hb₀ hu₀, (fresh₀.stage_new hb₀).2 u₀ hu₀]
  · rw [← same_id, progressAt?_of_unit wf at_i hb hu, (done b hb).1 u hu]
    decide

end

/-- Over any run without faults the reports, one after another, are the submissions of the
dispatcher, the calls of the validator with its verdicts, and what the store holds beyond its first
lines. No unit is submitted twice and no table judged twice, and in a table that has succeeded, and
was not recorded before, each unit was submitted exactly once. -/
theorem reports_are_ledger {tasks : List Task} (fresh : ∀ t ∈ tasks, t.Fresh)
    (distinct : (tasks.map (·.name)).Nodup) {plan : Plan} {gate : Gate} {lines : List String}
    {policy : Policy} {failing : List String} {rs : List Report}
    {s : Scheduler MemoryStore PolicyDispatcher FixedValidator}
    (run : Reported (.new plan tasks gate (.openOn ⟨lines⟩) (.ofPolicy policy) ⟨failing, [], []⟩) rs s) :
    rs.flatMap (·.admitted) = s.dispatcher.submitted ∧
    rs.flatMap (·.validations) = s.validator.calls.map (fun n => (n, !failing.contains n)) ∧
    s.log.store.lines = lines ++ rs.flatMap (·.newlyRecorded) ∧
    s.dispatcher.submitted.Nodup ∧ s.validator.calls.Nodup ∧
    ∀ t ∈ s.tasks, t.progress = .succeeded ∨ t.liveProgress = .succeeded →
      (FailoverLog.openOn (⟨lines⟩ : MemoryStore)).isFinished t.name = false →
      ∀ b ∈ t.stages, ∀ id ∈ b.ids, s.dispatcher.submitted.count ⟨t.name, b.action, id⟩ = 1 := by
  have start := new_wellFormed fresh plan gate (.openOn (⟨lines⟩ : MemoryStore))
    (PolicyDispatcher.ofPolicy policy) (⟨failing, [], []⟩ : FixedValidator)
  obtain ⟨es, booked⟩ := run.booked start ⟨nofun, nofun⟩
  have submitted : rs.flatMap (·.admitted) = s.dispatcher.submitted :=
    booked.admitted.trans booked.logs.submitted.symm
  have calls : s.validator.calls = (rs.flatMap (·.validations)).map (·.1) := by
    rw [booked.validations]
    exact booked.logs.calls
  refine ⟨submitted, ?_, ?_, ?_, ?_, fun t ht ended unfinished b hb id hid => ?_⟩
  · rw [calls, List.map_map, booked.validations]
    refine (List.map_id _).symm.trans (List.map_congr_left fun p hp => ?_)
    exact Prod.ext rfl (booked.logs.verdicts p hp)
  · rw [booked.recorded.store, MemoryStore.lines_foldl_append]
    rfl
  · rw [← submitted]
    exact booked.admitted_once fresh distinct
  · rw [calls, booked.validations]
    rw [← new_names plan tasks gate (.openOn (⟨lines⟩ : MemoryStore)) (PolicyDispatcher.ofPolicy policy)
      (⟨failing, [], []⟩ : FixedValidator)] at distinct
    exact booked.chronicle.judged_once start distinct
  · have start_lags := new_lags fresh plan gate (.openOn (⟨lines⟩ : MemoryStore))
      (PolicyDispatcher.ofPolicy policy) (⟨failing, [], []⟩ : FixedValidator)
    have lags := (booked.chronicle.reaches.evolves start).lags start start_lags t ht
    have live : t.liveProgress = .succeeded := by
      rcases ended with stored | live
      · have risen := lags.progress
        rw [stored] at risen
        exact risen.eq_of_terminal rfl
      · exact live
    rw [← submitted]
    exact booked.ended_count fresh distinct ht live unfinished hb hid

theorem oneTable_ledger :
    ([⟨"db.t", .createTable, "p=1"⟩, ⟨"db.t", .createTable, "p=2"⟩] : List UnitKey) =
      (OneTable.start .succeed).tick.1.dispatcher.submitted ∧
    [("db.t", true)] = (OneTable.start .succeed).tick.1.validator.calls.map (fun n => (n, true)) ∧
    (OneTable.start .succeed).tick.1.log.store.lines = ["db.t"] ∧
    (OneTable.start .succeed).tick.1.dispatcher.submitted.count ⟨"db.t", .createTable, "p=1"⟩ = 1 := by
  have run : Reported (OneTable.start .succeed) _ (OneTable.start .succeed).tick.1 := .tick .start rfl
  obtain ⟨admitted, validations, lines, -, -, once⟩ :=
    reports_are_ledger OneTable.tasks_fresh (List.nodup_singleton _) run
  refine ⟨admitted, validations, lines, ?_⟩
  exact once _ List.mem_cons_self (Or.inl rfl) rfl _ List.mem_cons_self _ List.mem_cons_self

end Scheduler

end TableMigration
