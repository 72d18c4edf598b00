import Mathlib.Algebra.BigOperators.Group.List.Basic
import Mathlib.Algebra.Ring.Nat
import Mathlib.Data.List.Sigma
import TableMigration.Proofs.Faults
import TableMigration.Proofs.Handles
import TableMigration.Proofs.Ledger

/-!
# Units in flight

A dispatcher whose policy knows no delays holds back exactly the units that run. What it holds and
what is stored for the units are changed by different operations: a submission that is held back adds
to both, a release takes out of both, and a unit that is settled while it is submitted gets into
neither.
-/

namespace TableMigration

/-! ## All units of a population -/

def Task.unitsAt (owner : Nat) (t : Task) : List Handle :=
  t.stages.flatMap fun s => s.ids.map fun id => ⟨⟨t.name, s.action, id⟩, owner⟩

def population (ts : List Task) : List Handle :=
  ts.zipIdx.flatMap fun p => p.1.unitsAt p.2

namespace Task

variable {owner : Nat} {t : Task} {h : Handle}

theorem mem_unitsAt : h ∈ t.unitsAt owner ↔
    h.owner = owner ∧ h.task = t.name ∧ ∃ s ∈ t.stages, s.action = h.action ∧ h.unit ∈ s.ids := by
  obtain ⟨⟨task, action, unit⟩, i⟩ := h
  simp only [unitsAt, List.mem_flatMap, List.mem_map, Handle.mk.injEq, UnitKey.mk.injEq]
  constructor
  · rintro ⟨s, hs, id, hid, ⟨rfl, rfl, rfl⟩, rfl⟩
    exact ⟨rfl, rfl, s, hs, rfl, hid⟩
  · rintro ⟨rfl, rfl, s, hs, rfl, hid⟩
    exact ⟨s, hs, unit, hid, ⟨rfl, rfl, rfl⟩, rfl⟩

theorem mem_of_unitProgress? {a : Action} {id : String} {p : Progress} (h : t.unitProgress? a id = some p) :
    ∃ s ∈ t.stages, s.action = a ∧ ∃ u ∈ s.units, u.id = id ∧ u.progress = p := by
  obtain ⟨s, found, read⟩ := Option.bind_eq_some_iff.mp h
  obtain ⟨hs, action⟩ := mem_of_stage? found
  obtain ⟨u, first, progress⟩ := Option.map_eq_some_iff.mp read
  have named : u.id = id := by simpa using List.find?_some first
  exact ⟨s, hs, action, u, List.mem_of_find?_eq_some first, named, progress⟩

variable (wf : t.WellFormed)
include wf

theorem unitsAt_nodup (owner : Nat) : (t.unitsAt owner).Nodup := by
  refine List.nodup_flatMap.mpr ⟨fun s hs => ?_, (List.pairwise_map.mp wf.nodup).imp fun ne h hh hh' => ?_⟩
  · exact (wf.stages s hs).nodup.map fun id id' same => congrArg (·.unit) same
  · obtain ⟨id, -, rfl⟩ := List.mem_map.mp hh
    obtain ⟨id', -, same⟩ := List.mem_map.mp hh'
    exact ne (congrArg (·.action) same).symm

theorem countP_stage {s : Stage} (hs : s ∈ t.stages) (owner : Nat) (a : Action) :
    (s.ids.map fun id => (⟨⟨t.name, s.action, id⟩, owner⟩ : Handle)).countP
      (fun h => h.action == a && t.unitProgress? h.action h.unit == some .running) =
    if s.action = a then s.runningCount else 0 := by
  rw [List.countP_map, Stage.ids, List.countP_map]
  by_cases ha : s.action = a
  · rw [if_pos ha, Stage.runningCount]
    refine List.countP_congr fun u hu => ?_
    have read : t.unitProgress? s.action u.id = some u.progress :=
      (unitProgress?_of_stage wf hs u.id).trans (Stage.unitProgress?_of_mem (wf.stages s hs).nodup hu)
    simp [ha ▸ read, ha]
  · rw [if_neg ha]
    refine List.countP_eq_zero.mpr fun u hu => ?_
    simp [ha]

theorem runningIn_eq_countP (owner : Nat) (a : Action) : t.runningIn a =
    (t.unitsAt owner).countP fun h => h.action == a && t.unitProgress? h.action h.unit == some .running := by
  rw [unitsAt, List.countP_flatMap]
  have each := List.map_congr_left fun s hs => countP_stage wf hs owner a
  refine Eq.trans ?_ (congrArg List.sum each).symm
  cases found : t.stage? a with
  | none =>
    have absent : ∀ s ∈ t.stages, s.action ≠ a := by simpa using List.find?_eq_none.mp found
    rw [runningIn, found]
    refine (List.sum_eq_zero (List.forall_mem_map.mpr fun s hs => ?_)).symm
    exact if_neg (absent s hs)
  | some s =>
    obtain ⟨hs, rfl⟩ := mem_of_stage? found
    rw [List.sum_map_eq_nsmul_single s _ fun b ne hb => if_neg fun same => ne (wf.eq_of_action hb hs same),
      List.count_eq_one_of_mem (wf.nodup.of_map) hs, runningIn_of_mem wf hs, if_pos rfl, one_nsmul]

end Task

theorem mem_population {ts : List Task} {h : Handle} : h ∈ population ts ↔
    ∃ t, ts[h.owner]? = some t ∧ h.task = t.name ∧ ∃ s ∈ t.stages, s.action = h.action ∧ h.unit ∈ s.ids := by
  simp only [population, List.mem_flatMap, List.mem_zipIdx_iff_getElem?, Task.mem_unitsAt, Prod.exists]
  constructor
  · rintro ⟨t, i, at_i, rfl, rest⟩
    exact ⟨t, at_i, rest⟩
  · rintro ⟨t, at_i, rest⟩
    exact ⟨t, h.owner, at_i, rfl, rest⟩

theorem population_nodup {ts : List Task} (wf : ∀ t ∈ ts, t.WellFormed) : (population ts).Nodup := by
  have apart := List.pairwise_map.mp (List.nodup_zipIdx_map_snd ts)
  refine List.nodup_flatMap.mpr ⟨fun p hp => ?_, apart.imp fun ne h hh hh' => ?_⟩
  · exact Task.unitsAt_nodup (wf p.1 (List.mem_of_getElem? (List.mem_zipIdx_iff_getElem?.mp hp))) p.2
  · exact ne ((Task.mem_unitsAt.mp hh).1.symm.trans (Task.mem_unitsAt.mp hh').1)

theorem population_congr {ts ts' : List Task}
    (h : ts'.map (fun t => (t.name, t.shape)) = ts.map fun t => (t.name, t.shape)) :
    population ts' = population ts := by
  have read : ∀ ts : List Task, population ts =
      (ts.map fun t => (t.name, t.shape)).zipIdx.flatMap fun p =>
        p.1.2.flatMap fun q => q.2.map fun id => ⟨⟨p.1.1, q.1, id⟩, p.2⟩ := by
    intro ts
    rw [List.zipIdx_map, List.flatMap_map]
    refine List.flatMap_congr fun p _ => ?_
    show _ = p.1.shape.flatMap _
    rw [Task.shape, List.flatMap_map]
    rfl
  rw [read, read, h]

theorem Evolves.population_eq {w : Conduct} {ts ts' : List Task} (h : Evolves w 0 ts ts')
    (wf : ∀ t ∈ ts, t.WellFormed) : population ts' = population ts :=
  population_congr (h.map_eq_of_moves fun ht moves => Prod.ext moves.name_eq (moves.shape_eq (wf _ ht)))

theorem Gate.inFlight_eq_sum (a : Action) (ts : List Task) :
    Gate.inFlight a ts = (ts.map (·.runningIn a)).sum := by
  induction ts with
  | nil => rfl
  | cons t ts ih => rw [inFlight_cons, ih, List.map_cons, List.sum_cons]

theorem Scheduler.inFlight_eq_countP {σ δ ν : Type} (s : Scheduler σ δ ν)
    (wf : ∀ t ∈ s.tasks, t.WellFormed) (a : Action) : Gate.inFlight a s.tasks =
      (population s.tasks).countP fun h => h.action == a && s.progress? h == some .running := by
  rw [Gate.inFlight_eq_sum, population, List.countP_flatMap]
  conv_lhs => rw [← List.zipIdx_map_fst 0 s.tasks, List.map_map]
  refine congrArg List.sum (List.map_congr_left fun p hp => ?_)
  have at_p := List.mem_zipIdx_iff_getElem?.mp hp
  refine (Task.runningIn_eq_countP (wf p.1 (List.mem_of_getElem? at_p)) p.2 a).trans ?_
  refine List.countP_congr fun h hh => ?_
  unfold Scheduler.progress?
  rw [(Task.mem_unitsAt.mp hh).1, at_p, Option.bind_some]

/-! ## Units set running by requests -/

def Request.running? : Request → Option Handle
  | submit h .running => some h
  | submit _ (.finished _) | submit _ (.refused _) | validate .. => none

theorem Request.of_running? {q : Request} {h : Handle} (left : q.running? = some h) :
    q = .submit h .running := by
  match q, left with
  | submit g .running, left => rw [Option.some.inj left]

/-- What becomes of the unit of `c` while these are set running and stay so. -/
structure Starts (c : Cell) (p : Option Progress) (hs : List Handle) (r : Option Progress) : Prop where
  fresh : c ∈ hs.map Handle.cell → p = some .new
  back : r = some .new → p = some .new
  running : r = some .running ↔ p = some .running ∨ c ∈ hs.map Handle.cell
  once : (hs.map Handle.cell).count c ≤ 1

namespace Starts

variable {c : Cell} {p q r : Option Progress} {hs hs' : List Handle}

theorem idle (other : c ∉ hs.map Handle.cell) (p : Option Progress) : Starts c p hs p where
  fresh mem := absurd mem other
  back := id
  running := ⟨Or.inl, fun h => h.resolve_right other⟩
  once := by
    rw [List.count_eq_zero.mpr other]
    exact Nat.zero_le 1

theorem append (h : Starts c p hs q) (h' : Starts c q hs' r) : Starts c p (hs ++ hs') r := by
  have apart : c ∈ hs.map Handle.cell → c ∉ hs'.map Handle.cell := by
    intro mem mem'
    have running := h.running.mpr (Or.inr mem)
    rw [h'.fresh mem'] at running
    cases running
  refine ⟨fun mem => ?_, fun new => h.back (h'.back new), ?_, ?_⟩
  · rw [List.map_append, List.mem_append] at mem
    exact mem.elim h.fresh fun mem' => h.back (h'.fresh mem')
  · rw [h'.running, h.running, List.map_append, List.mem_append, or_assoc]
  · rw [List.map_append, List.count_append]
    by_cases mem : c ∈ hs.map Handle.cell
    · rw [List.count_eq_zero.mpr (apart mem)]
      exact h.once
    · rw [List.count_eq_zero.mpr mem, Nat.zero_add]
      exact h'.once

theorem of_request {t : Task} {k : Request} (faultless : Conduct.faultless.answers k)
    (h : Passage p (k.marks c t) r) : Starts c p k.running?.toList r := by
  cases k with
  | validate owner a verdict =>
    cases h
    exact .idle List.not_mem_nil _
  | submit g receipt =>
    by_cases here : g.cell = c
    · rw [Request.marks, if_pos here] at h
      obtain ⟨rfl, rest⟩ := h.of_submitted
      cases receipt with
      | refused e => exact faultless.elim
      | running =>
        cases rest
        exact ⟨fun _ => rfl, fun _ => rfl, iff_of_true rfl (Or.inr (List.mem_singleton.mpr here.symm)),
          List.count_le_length⟩
      | finished o =>
        cases rest.of_reported.2
        exact ⟨fun _ => rfl, fun _ => rfl, iff_of_false (by simp) (by simp [Request.running?]), Nat.zero_le 1⟩
    · rw [Request.marks, if_neg here] at h
      cases h
      refine .idle (fun mem => here ?_) p
      obtain ⟨u, hu, same⟩ := List.mem_map.mp mem
      have left := Request.of_running? (Option.mem_toList.mp hu)
      rw [(Request.submit.inj left).1, same]

theorem of_requests {qs : List (Task × Request)} (faultless : ∀ q ∈ qs, Conduct.faultless.answers q.2)
    (h : Passage p (qs.flatMap fun q => q.2.marks c q.1) r) :
    Starts c p (qs.filterMap (·.2.running?)) r := by
  induction qs generalizing p with
  | nil =>
    cases h
    exact .idle List.not_mem_nil _
  | cons q qs ih =>
    obtain ⟨first, rest⟩ := List.forall_mem_cons.mp faultless
    rw [List.flatMap_cons] at h
    obtain ⟨mid, head, tail⟩ := h.split
    rw [List.filterMap_eq_flatMap_toList, List.flatMap_cons, ← List.filterMap_eq_flatMap_toList]
    exact (of_request first head).append (ih rest tail)

end Starts

/-! ## Held back -/

/-- No unit succeeds after a delay: it is settled at once, held back or refused. -/
def Policy.Untimed (p : Policy) : Prop :=
  ∀ h delay, p.completion h ≠ .succeedAfter delay

theorem PolicyDispatcher.Serves.held_of_untimed {d d' : PolicyDispatcher} {h : Handle} {receipt : Receipt}
    (serves : d.Serves h d' receipt) (untimed : d.policy.Untimed) :
    d'.held = d.held ++ (Request.submit h receipt).running?.toList := by
  rw [serves.held]
  refine congrArg (d.held ++ ·) ?_
  cases receipt with
  | running =>
    have hold := (Policy.runs_of_receipt serves.answer.symm).resolve_right fun ⟨delay, late⟩ =>
      untimed h delay late
    rw [if_pos ⟨rfl, hold⟩]
    rfl
  | finished o => simp [Request.running?]
  | refused e => simp [Request.running?]

theorem Exchange.held {ν : Type} [Validator ν] {counts : RowCounts} {k : Nat}
    {x y : Outside PolicyDispatcher ν} {ms : List Moment} (exchange : Exchange counts k x ms y)
    (untimed : x.dispatcher.policy.Untimed) : y.dispatcher.policy = x.dispatcher.policy ∧
      y.dispatcher.held = x.dispatcher.held ++ ms.filterMap (·.request.running?) := by
  induction exchange with
  | nil x => exact ⟨rfl, (List.append_nil _).symm⟩
  | @submit x y ms ts h d receipt served _ ih =>
    have serves := PolicyDispatcher.submit_serves served
    obtain ⟨policy, held⟩ := ih (serves.policy ▸ untimed)
    refine ⟨policy.trans serves.policy, ?_⟩
    rw [held, serves.held_of_untimed untimed, List.append_assoc,
      List.filterMap_eq_flatMap_toList, List.filterMap_eq_flatMap_toList, List.flatMap_cons]
  | validate a subject judged _ ih => exact ih untimed

theorem mem_map_filter_iff {α β : Type} {f : α → β} {xs : List α} (apart : (xs.map f).Nodup) {x : α}
    (hx : x ∈ xs) {p : α → Bool} : f x ∈ (xs.filter p).map f ↔ p x = true := by
  constructor
  · intro mem
    obtain ⟨y, hy, same⟩ := List.mem_map.mp mem
    obtain ⟨hy, picked⟩ := List.mem_filter.mp hy
    rwa [← List.inj_on_of_nodup_map apart hy hx same]
  · exact fun picked => List.mem_map_of_mem (List.mem_filter.mpr ⟨hx, picked⟩)

namespace Scheduler

variable {σ δ ν : Type}

/-- The dispatcher holds back one handle of each unit that runs, and nothing else. -/
structure Matched (s : Scheduler σ PolicyDispatcher ν) : Prop where
  wellFormed : ∀ t ∈ s.tasks, t.WellFormed
  untimed : s.dispatcher.policy.Untimed
  named : ∀ h ∈ s.dispatcher.held, (s.tasks.map (·.name))[h.owner]? = some h.task
  distinct : (s.dispatcher.held.map Handle.cell).Nodup
  running : ∀ c, s.progressAt? c = some .running ↔ c ∈ s.dispatcher.held.map Handle.cell

theorem new_population (plan : Plan) (tasks : List Task) (gate : Gate) (log : FailoverLog σ)
    (d : δ) (v : ν) : population (Scheduler.new plan tasks gate log d v).tasks = population tasks :=
  population_congr (new_map_eq_of_resumed (fun t => Prod.ext rfl (Task.shape_assumeSucceeded t)) ..)

theorem new_matched {tasks : List Task} (fresh : ∀ t ∈ tasks, t.Fresh) (plan : Plan) (gate : Gate)
    (log : FailoverLog σ) {policy : Policy} (untimed : policy.Untimed) (v : ν) :
    (Scheduler.new plan tasks gate log (.ofPolicy policy) v).Matched where
  wellFormed := new_wellFormed fresh plan gate log _ v
  untimed := untimed
  named := List.forall_mem_nil _
  distinct := List.nodup_nil
  running c := by
    refine iff_of_false (fun running => ?_) List.not_mem_nil
    obtain ⟨t, at_c, read⟩ := Option.bind_eq_some_iff.mp running
    obtain ⟨s, hs, -, u, hu, -, runs⟩ := Task.mem_of_unitProgress? read
    exact new_still fresh plan gate log _ v t (List.mem_of_getElem? at_c) s hs u hu runs

theorem finish_progressAt? (s : Scheduler σ δ ν) (h : Handle) (o : Outcome) (c : Cell) :
    (s.finish h o).1.progressAt? c =
      if h.cell = c ∧ s.progressAt? c = some .running then some o.progress else s.progressAt? c := by
  have passage := finish_passage s h o c
  generalize s.progressAt? c = p, (s.finish h o).1.progressAt? c = r, (s.finish h o).2 = counted at passage ⊢
  simp only [Entry.marks] at passage
  by_cases here : h.cell = c
  · rw [if_pos here] at passage
    cases passage with
    | cons head rest =>
      cases rest
      cases head with
      | settle => exact (if_pos ⟨here, rfl⟩).symm
      | late _ idle => exact (if_neg fun both => idle both.2).symm
  · rw [if_neg here] at passage
    cases passage
    exact (if_neg fun both => here both.1).symm

theorem finishAll_progressAt? (s : Scheduler σ δ ν) (hs : List Handle) (o : Outcome) (c : Cell) :
    (s.finishAll hs o).progressAt? c =
      if c ∈ hs.map Handle.cell ∧ s.progressAt? c = some .running then some o.progress
      else s.progressAt? c := by
  induction hs generalizing s with
  | nil => exact (if_neg fun both => List.not_mem_nil both.1).symm
  | cons h hs ih =>
    refine (ih _).trans ?_
    rw [finish_progressAt?]
    by_cases running : s.progressAt? c = some .running
    · by_cases here : h.cell = c
      · simp [running, here]
      · simp [running, here, Ne.symm here]
    · simp [running]

section
variable (s : Scheduler σ PolicyDispatcher ν) (p : Handle → Bool) (o : Outcome)

theorem release_dispatcher : (s.release p o).dispatcher = (s.dispatcher.release p).2 := by
  rw [release, finishAll_eq]

theorem release_evolves (wf : ∀ t ∈ s.tasks, t.WellFormed) : Evolves .any 0 s.tasks (s.release p o).tasks :=
  finishAll_evolves (s := { s with dispatcher := (s.dispatcher.release p).2 }) wf
    (s.dispatcher.release p).1 o

theorem release_progressAt? (c : Cell) : (s.release p o).progressAt? c =
    if c ∈ (s.dispatcher.held.filter p).map Handle.cell ∧ s.progressAt? c = some .running then
      some o.progress
    else s.progressAt? c :=
  finishAll_progressAt? { s with dispatcher := (s.dispatcher.release p).2 } (s.dispatcher.release p).1 o c

theorem release_running_iff (c : Cell) : (s.release p o).progressAt? c = some .running ↔
    s.progressAt? c = some .running ∧ c ∉ (s.dispatcher.held.filter p).map Handle.cell := by
  rw [release_progressAt?]
  by_cases running : s.progressAt? c = some .running
  · by_cases picked : c ∈ (s.dispatcher.held.filter p).map Handle.cell
    · rw [if_pos ⟨picked, running⟩]
      exact iff_of_false (by simp) fun both => both.2 picked
    · rw [if_neg fun both => picked both.1]
      exact ⟨fun still => ⟨still, picked⟩, And.left⟩
  · rw [if_neg fun both => running both.2]
    exact iff_of_false running fun both => running both.1

end

section
variable [NameStore σ] [Validator ν]

theorem perform_starts [Dispatcher δ] (s : Scheduler σ δ ν) (wf : ∀ t ∈ s.tasks, t.WellFormed) (c : Call)
    (clean : s.fault? c = none) (cell : Cell) : Starts cell (s.progressAt? cell)
      ((asked 0 (s.moments c)).filterMap (·.2.running?)) ((s.perform c).progressAt? cell) := by
  refine .of_requests (fun q hq => ?_) (perform_passage s wf c cell)
  have stops := perform_stops s wf c
  rw [clean] at stops
  obtain ⟨m, hm, same, -⟩ := request_of_mem_asked hq
  exact Request.fault?_eq_none_iff.mp (stops.clean q.2 (same ▸ List.mem_map_of_mem hm))

theorem perform_held (s : Scheduler σ PolicyDispatcher ν) (wf : ∀ t ∈ s.tasks, t.WellFormed) (c : Call)
    (untimed : s.dispatcher.policy.Untimed) : (s.perform c).dispatcher.policy = s.dispatcher.policy ∧
      (s.perform c).dispatcher.held =
        s.dispatcher.held ++ (asked 0 (s.moments c)).filterMap (·.2.running?) := by
  obtain ⟨policy, held⟩ := (perform_exchange s wf c).held untimed
  have proper := (perform_evolves (w := .any) s wf c fun _ _ => trivial).2
  have same := congrArg (List.filterMap Request.running?) (asked_requests fun m hm => (proper m hm).2)
  rw [List.filterMap_map, List.filterMap_map] at same
  exact ⟨policy, held.trans (congrArg (s.dispatcher.held ++ ·) same.symm)⟩

end

namespace Matched

variable {s : Scheduler σ PolicyDispatcher ν} (h : s.Matched)
include h

theorem mem_held_iff {g : Handle} : g ∈ s.dispatcher.held ↔
    (s.tasks.map (·.name))[g.owner]? = some g.task ∧ s.progress? g = some .running := by
  have read : s.progress? g = s.progressAt? g.cell := rfl
  rw [read, h.running]
  refine ⟨fun held => ⟨h.named g held, List.mem_map_of_mem held⟩, fun ⟨name, held⟩ => ?_⟩
  obtain ⟨g', held', same⟩ := List.mem_map.mp held
  have name' := h.named g' held'
  obtain ⟨⟨task, action, unit⟩, owner⟩ := g
  obtain ⟨⟨task', action', unit'⟩, owner'⟩ := g'
  cases same
  cases name.symm.trans name'
  exact held'

theorem held_perm :
    s.dispatcher.held.Perm ((population s.tasks).filter fun g => s.progress? g == some .running) := by
  have once := (population_nodup h.wellFormed).filter fun g => s.progress? g == some .running
  refine (List.perm_ext_iff_of_nodup (h.distinct.of_map) once).mpr fun g => ?_
  rw [h.mem_held_iff, List.mem_filter, beq_iff_eq, List.getElem?_map, mem_population]
  refine and_congr_left fun running => ?_
  obtain ⟨t, at_g, read⟩ := Option.bind_eq_some_iff.mp running
  obtain ⟨b, hb, action, u, hu, id, -⟩ := Task.mem_of_unitProgress? read
  rw [at_g, Option.map_some]
  refine ⟨fun name => ?_, fun ⟨t', at_g', name, _⟩ => ?_⟩
  · exact ⟨t, rfl, (Option.some.inj name).symm, b, hb, action, id ▸ List.mem_map_of_mem hu⟩
  · rw [Option.some.inj at_g', name]

theorem inFlight_eq (a : Action) : Gate.inFlight a s.tasks = s.dispatcher.held.countP (·.action == a) := by
  rw [s.inFlight_eq_countP h.wellFormed, h.held_perm.countP_eq, List.countP_filter]

variable (p : Handle → Bool) (o : Outcome)

theorem release_progress? {g : Handle} (hg : g ∈ population s.tasks) : (s.release p o).progress? g =
    if p g && s.progress? g == some .running then some o.progress else s.progress? g := by
  obtain ⟨t, at_g, name, -⟩ := mem_population.mp hg
  refine (release_progressAt? s p o g.cell).trans (if_congr ?_ rfl rfl)
  rw [Bool.and_eq_true, beq_iff_eq]
  refine and_congr_left fun running => mem_map_filter_iff h.distinct (h.mem_held_iff.mpr ⟨?_, running⟩)
  rw [List.getElem?_map, at_g, name, Option.map_some]

theorem release : (s.release p o).Matched := by
  have evolves := release_evolves s p o h.wellFormed
  have kept : (s.release p o).dispatcher.held.Sublist s.dispatcher.held := by
    rw [release_dispatcher]
    exact List.filter_sublist
  refine ⟨evolves.wellFormed h.wellFormed, ?_, fun g hg => ?_, h.distinct.sublist (kept.map _), fun c => ?_⟩
  · rw [release_dispatcher]
    exact h.untimed
  · rw [evolves.names_eq]
    exact h.named g (kept.subset hg)
  · rw [release_running_iff]
    constructor
    · rintro ⟨running, left⟩
      obtain ⟨g, held, rfl⟩ := List.mem_map.mp ((h.running c).mp running)
      rw [mem_map_filter_iff h.distinct held, Bool.not_eq_true] at left
      rw [release_dispatcher]
      exact (mem_map_filter_iff h.distinct held).mpr (by rw [left]; rfl)
    · intro mem
      refine ⟨(h.running c).mpr ((kept.map _).subset mem), ?_⟩
      rw [release_dispatcher] at mem
      obtain ⟨g, hg, rfl⟩ := List.mem_map.mp mem
      obtain ⟨held, spared⟩ := List.mem_filter.mp hg
      rw [mem_map_filter_iff h.distinct held]
      simpa using spared

theorem released_length : (s.dispatcher.release p).1.length = (population s.tasks).countP fun g =>
    s.progress? g == some .running && (s.release p o).progress? g == some o.progress := by
  show (s.dispatcher.held.filter p).length = _
  rw [← List.countP_eq_length_filter, h.held_perm.countP_eq, List.countP_filter]
  refine List.countP_congr fun g hg => ?_
  rw [h.release_progress? p o hg]
  by_cases running : s.progress? g = some .running
  · cases p g <;> simp [running, o.progress_ne_running.symm]
  · simp [running]

section
variable [NameStore σ] [Validator ν]

theorem call (c : Call) (clean : s.fault? c = none) : (s.perform c).Matched := by
  have evolves := (perform_evolves (w := .any) s h.wellFormed c fun _ _ => trivial).1
  have starts := perform_starts s h.wellFormed c clean
  obtain ⟨policy, held⟩ := perform_held s h.wellFormed c h.untimed
  refine ⟨evolves.wellFormed h.wellFormed, policy ▸ h.untimed, ?_, ?_, fun cell => ?_⟩
  · rw [held, evolves.names_eq, List.forall_mem_append]
    refine ⟨h.named, fun g hg => ?_⟩
    obtain ⟨q, hq, left⟩ := List.mem_filterMap.mp hg
    obtain ⟨at_q, name⟩ := s.asked_named h.wellFormed c q hq
    rw [Request.of_running? left] at at_q name
    rw [name g rfl]
    exact at_q
  · rw [held, List.map_append, List.nodup_iff_count_le_one]
    intro cell
    rw [List.count_append]
    by_cases mem : cell ∈ s.dispatcher.held.map Handle.cell
    · -- a unit that is held back runs already, so that it is not set running again
      have again : cell ∉ ((asked 0 (s.moments c)).filterMap (·.2.running?)).map Handle.cell := by
        intro mem'
        have running := (h.running cell).mpr mem
        rw [(starts cell).fresh mem'] at running
        cases running
      rw [List.count_eq_zero.mpr again]
      exact List.nodup_iff_count_le_one.mp h.distinct cell
    · rw [List.count_eq_zero.mpr mem, Nat.zero_add]
      exact (starts cell).once
  · rw [(starts cell).running, h.running, held, List.map_append, List.mem_append]

end

end Matched

section
variable [NameStore σ] [Validator ν]

/-- Calls without faults, and releases between them. -/
inductive Driven (start : Scheduler σ PolicyDispatcher ν) : Scheduler σ PolicyDispatcher ν → Prop
  | start : Driven start start
  | call {s : Scheduler σ PolicyDispatcher ν} (before : Driven start s) (c : Call)
      (clean : s.fault? c = none) : Driven start (s.perform c)
  | shutdown {s : Scheduler σ PolicyDispatcher ν} (before : Driven start s) : Driven start s.shutdown
  | release {s : Scheduler σ PolicyDispatcher ν} (before : Driven start s) (p : Handle → Bool)
      (o : Outcome) : Driven start (s.release p o)
  /-- The validator and the row counts change by themselves. -/
  | outside {s : Scheduler σ PolicyDispatcher ν} (before : Driven start s) (v : ν) (counts : RowCounts) :
      Driven start { s with validator := v, counts }

namespace Driven

variable {start s : Scheduler σ PolicyDispatcher ν}

theorem matched (run : Driven start s) (h : start.Matched) : s.Matched := by
  induction run with
  | start => exact h
  | call _ c clean ih => exact ih.call c clean
  | release _ p o ih => exact ih.release p o
  | shutdown _ ih => exact ⟨ih.wellFormed, ih.untimed, ih.named, ih.distinct, ih.running⟩
  | outside _ v counts ih => exact ⟨ih.wellFormed, ih.untimed, ih.named, ih.distinct, ih.running⟩

theorem evolves (run : Driven start s) (wf : ∀ t ∈ start.tasks, t.WellFormed) :
    Evolves .any 0 start.tasks s.tasks := by
  induction run with
  | start => exact .refl ..
  | call _ c _ ih => exact ih.trans (perform_evolves _ (ih.wellFormed wf) c fun _ _ => trivial).1
  | release _ p o ih => exact ih.trans (release_evolves _ p o (ih.wellFormed wf))
  | shutdown _ ih | outside _ _ _ ih => exact ih

theorem population_eq (run : Driven start s) (wf : ∀ t ∈ start.tasks, t.WellFormed) :
    population s.tasks = population start.tasks :=
  (run.evolves wf).population_eq wf

end Driven

/-- At any time between calls and releases the handles held back are those of the units that run, one
for each, so that as many units of an action are in flight as handles of it are held. A release, of a
task, of an action or of all, settles as many units as it takes out, which are the running ones that
it picks, and leaves the other units as they are and the other handles held, in their order. -/
theorem held_are_running {tasks : List Task} (fresh : ∀ t ∈ tasks, t.Fresh) {plan : Plan} {gate : Gate}
    {log : FailoverLog σ} {policy : Policy} (untimed : policy.Untimed) {v : ν}
    {s : Scheduler σ PolicyDispatcher ν}
    (run : Driven (.new plan tasks gate log (.ofPolicy policy) v) s) :
    (population tasks).Nodup ∧ population s.tasks = population tasks ∧
    s.dispatcher.held.Perm ((population tasks).filter fun h => s.progress? h == some .running) ∧
    (∀ a, Gate.inFlight a s.tasks = s.dispatcher.held.countP (·.action == a)) ∧
    ∀ (p : Handle → Bool) (o : Outcome),
      (s.dispatcher.release p).1.length = (population tasks).countP (fun h =>
        s.progress? h == some .running && (s.release p o).progress? h == some o.progress) ∧
      (∀ h ∈ population tasks, (s.release p o).progress? h =
        if p h && s.progress? h == some .running then some o.progress else s.progress? h) ∧
      (s.release p o).dispatcher.held = s.dispatcher.held.filter fun h => !p h := by
  have matched := run.matched (new_matched fresh plan gate log untimed v)
  have wf := new_wellFormed fresh plan gate log (PolicyDispatcher.ofPolicy policy) v
  rw [← new_population plan tasks gate log (PolicyDispatcher.ofPolicy policy) v, ← run.population_eq wf]
  refine ⟨population_nodup matched.wellFormed, rfl, matched.held_perm, matched.inFlight_eq,
    fun p o => ⟨matched.released_length p o, fun h hh => matched.release_progress? p o hh, ?_⟩⟩
  rw [release_dispatcher]
  rfl

end

theorem oneTable_in_flight :
    Gate.inFlight .createTable
      ((OneTable.start .hold).tick.1.release (·.unit == "p=1") .succeeded).tasks = 1 ∧
    (((OneTable.start .hold).tick.1.release (·.unit == "p=1") .succeeded).dispatcher.release
      fun _ => true).1 = [OneTable.unit "p=2"] ∧
    (((OneTable.start .hold).tick.1.release (·.unit == "p=1") .succeeded).release
      (fun _ => true) .failed).progress? (OneTable.unit "p=2") = some .failed ∧
    (((OneTable.start .hold).tick.1.release (·.unit == "p=1") .succeeded).release
      (fun _ => true) .failed).progress? (OneTable.unit "p=1") = some .succeeded := by
  have untimed : Policy.Untimed ⟨.hold, .empty, [], []⟩ := fun h delay held => by cases held
  have ticked : Driven (OneTable.start .hold) (OneTable.start .hold).tick.1 := .call .start .tick rfl
  have run := ticked.release (·.unit == "p=1") .succeeded
  have held : ((OneTable.start .hold).tick.1.release (·.unit == "p=1") .succeeded).dispatcher.held =
      [OneTable.unit "p=2"] := rfl
  obtain ⟨-, -, -, flight, releases⟩ := held_are_running OneTable.tasks_fresh untimed run
  obtain ⟨-, settled, -⟩ := releases (fun _ => true) .failed
  refine ⟨?_, held, ?_, ?_⟩
  · rw [flight, held]
    rfl
  · rw [settled _ (by decide)]
    rfl
  · rw [settled _ (by decide)]
    rfl

end Scheduler

end TableMigration
