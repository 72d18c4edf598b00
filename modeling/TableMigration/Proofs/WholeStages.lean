import TableMigration.Proofs.Once

/-!
# Stages start as a whole

While nothing is refused, no stage is left half started: between calls either all its units are new or
none is. A call submits the units that are new before it and not after it, so that it submits all units
of a stage or none of them.
-/

namespace TableMigration

namespace Scheduler

variable {σ δ ν : Type} [NameStore σ] [Dispatcher δ] [Validator ν]

/-! ## What a call submits -/

def givenBy (s : Scheduler σ δ ν) (c : Call) : List Handle :=
  (s.moments c).filterMap (·.request.handle?)

section
variable {s : Scheduler σ δ ν} (wf : ∀ t ∈ s.tasks, t.WellFormed) (c : Call)
include wf

theorem perform_handles : (s.perform c).handles = s.handles ++ s.givenBy c :=
  (perform_exchange s wf c).handles_eq

theorem count_givenBy (cell : Cell) : ((s.givenBy c).map Handle.cell).count cell =
    if s.progressAt? cell = some .new ∧ (s.perform c).progressAt? cell ≠ some .new then 1 else 0 := by
  have called : Chronicle s _ (s.perform c) := .call .start c
  have listed := called.handles_eq wf
  rw [perform_handles wf c] at listed
  rw [List.append_cancel_left listed]
  exact called.count_handed wf cell

end

theorem Reaches.chronicle {w : Conduct} {s s' : Scheduler σ δ ν} (run : Reaches w s s') :
    ∃ es, Chronicle s es s' := by
  induction run with
  | refl => exact ⟨[], .start⟩
  | tail _ step ih =>
    obtain ⟨es, before⟩ := ih
    cases step with
    | call c _ => exact ⟨_, before.call c⟩
    | settle given _ => exact ⟨_, before.finish given _⟩
    | outside d v counts => exact ⟨es, before.outside d v counts⟩

/-! ## All units or none -/

section
variable {s : Scheduler σ δ ν} {i : Nat} {t : Task} {b : Stage}

omit [NameStore σ] [Dispatcher δ] [Validator ν] in
theorem all_or_none_new (wf : t.WellFormed) (whole : t.Whole) (at_i : s.tasks[i]? = some t)
    (hb : b ∈ t.stages) : (∀ id ∈ b.ids, s.progressAt? ⟨i, b.action, id⟩ = some .new) ∨
      ∀ id ∈ b.ids, s.progressAt? ⟨i, b.action, id⟩ ≠ some .new := by
  unfold Stage.ids
  rw [List.forall_mem_map, List.forall_mem_map]
  rcases whole b hb with new | started
  · left
    intro u hu
    rw [progressAt?_of_unit wf at_i hb hu, new u hu]
  · right
    intro u hu
    rw [progressAt?_of_unit wf at_i hb hu]
    exact fun new => Stage.newIds_eq_nil_iff.mp started u hu (Option.some.inj new)

variable (wf : ∀ t ∈ s.tasks, t.WellFormed) (whole : ∀ t ∈ s.tasks, t.Whole) (c : Call)
  (accepted : ∀ m ∈ s.moments c, Conduct.accepting.answers m.request)
  (at_i : s.tasks[i]? = some t) (hb : b ∈ t.stages)
include wf whole accepted at_i hb

theorem perform_all_or_none : (∀ id ∈ b.ids, s.progressAt? ⟨i, b.action, id⟩ = some .new ∧
      (s.perform c).progressAt? ⟨i, b.action, id⟩ ≠ some .new) ∨
    ∀ id ∈ b.ids, ¬(s.progressAt? ⟨i, b.action, id⟩ = some .new ∧
      (s.perform c).progressAt? ⟨i, b.action, id⟩ ≠ some .new) := by
  have called : Reaches .accepting s (s.perform c) := .single (.call c accepted)
  obtain ⟨t', at_i', moves⟩ := (called.evolves wf).moves i t at_i
  have ht := List.mem_of_getElem? at_i
  have ht' := List.mem_of_getElem? at_i'
  have shape := moves.shape_eq (wf t ht)
  obtain ⟨b', hb', action, ids⟩ := Task.exists_stage_of_shape shape.symm hb
  have after := all_or_none_new ((wf t ht).of_shape shape) (called.whole wf whole t' ht') at_i' hb'
  rw [action, ids] at after
  rcases all_or_none_new (wf t ht) (whole t ht) at_i hb with new | started
  · rcases after with still | left
    · right
      intro id hid submitted
      exact submitted.2 (still id hid)
    · left
      intro id hid
      exact ⟨new id hid, left id hid⟩
  · right
    intro id hid submitted
    exact started id hid submitted.1

theorem given_all_or_none :
    (∀ id ∈ b.ids, ((s.givenBy c).map Handle.cell).count ⟨i, b.action, id⟩ = 1 ∧
      s.progressAt? ⟨i, b.action, id⟩ = some .new) ∨
    ∀ id ∈ b.ids, ⟨i, b.action, id⟩ ∉ (s.givenBy c).map Handle.cell := by
  rcases perform_all_or_none wf whole c accepted at_i hb with all | none
  · left
    intro id hid
    rw [count_givenBy wf, if_pos (all id hid)]
    exact ⟨rfl, (all id hid).1⟩
  · right
    intro id hid
    rw [← List.count_eq_zero, count_givenBy wf, if_neg (none id hid)]

end

/-- Over any run in which nothing is refused, stages start all at once. At every point between calls the
units of a stage are all new or none of them is, and every call submits all units of a stage, each once
and none of them submitted before, or none of them. -/
theorem stages_start_whole {tasks : List Task} (fresh : ∀ t ∈ tasks, t.Fresh) {plan : Plan} {gate : Gate}
    {log : FailoverLog σ} {d : δ} {v : ν} {s : Scheduler σ δ ν}
    (run : Reaches .accepting (Scheduler.new plan tasks gate log d v) s) :
    (∀ t ∈ s.tasks, ∀ b ∈ t.stages,
      (∀ u ∈ b.units, u.progress = .new) ∨ ∀ u ∈ b.units, u.progress ≠ .new) ∧
    ∀ c, (∀ m ∈ s.moments c, Conduct.accepting.answers m.request) →
      (s.perform c).handles = s.handles ++ s.givenBy c ∧
      ∀ i t, s.tasks[i]? = some t → ∀ b ∈ t.stages,
        (∀ id ∈ b.ids, ((s.givenBy c).map Handle.cell).count ⟨i, b.action, id⟩ = 1 ∧
          ⟨i, b.action, id⟩ ∉ s.handles.map Handle.cell) ∨
        ∀ id ∈ b.ids, ⟨i, b.action, id⟩ ∉ (s.givenBy c).map Handle.cell := by
  have start := new_wellFormed fresh plan gate log d v
  have wf := (run.evolves start).wellFormed start
  have whole := run.whole start (new_whole fresh plan gate log d v)
  constructor
  · intro t ht b hb
    exact (whole t ht b hb).imp_right Stage.newIds_eq_nil_iff.mp
  · intro c accepted
    refine ⟨perform_handles wf c, fun i t at_i b hb => ?_⟩
    refine (given_all_or_none wf whole c accepted at_i hb).imp_left fun all id hid => ?_
    obtain ⟨once, new⟩ := all id hid
    refine ⟨once, ?_⟩
    -- a unit that had a handle would not be new any more
    obtain ⟨es, history⟩ := run.chronicle
    have listed : s.handles = es.filterMap (·.handle?) := history.handles_eq start
    rw [listed, ← List.count_eq_zero, history.count_handed start]
    exact if_neg fun left => left.2 new

theorem oneTable_starts_whole :
    (∀ id ∈ ["p=1", "p=2"],
      (((OneTable.start .hold).givenBy .tick).map Handle.cell).count (OneTable.unit id).cell = 1) ∧
    ∀ id ∈ ["p=1", "p=2"],
      (OneTable.unit id).cell ∉ ((OneTable.start .hold).tick.1.givenBy .tick).map Handle.cell := by
  have accepted : ∀ s : Scheduler MemoryStore PolicyDispatcher FixedValidator,
      (∀ m ∈ s.moments .tick, Conduct.faultless.answers m.request) →
      ∀ m ∈ s.moments .tick, Conduct.accepting.answers m.request := by
    intro s faultless m hm
    exact (Conduct.faultless_iff.mp (faultless m hm)).1
  have answered := accepted (OneTable.start .hold) (by decide)
  have ticked : Reaches .accepting (OneTable.start .hold) (OneTable.start .hold).tick.1 :=
    .single (.call .tick answered)
  constructor
  · have first := ((stages_start_whole OneTable.tasks_fresh .refl).2 .tick answered).2 0 OneTable.task rfl
    rcases first _ List.mem_cons_self with all | none
    · exact fun id hid => (all id hid).1
    · exact absurd (none "p=1" List.mem_cons_self) (by decide)
  · have again := accepted (OneTable.start .hold).tick.1 (by decide)
    have second := ((stages_start_whole OneTable.tasks_fresh ticked).2 .tick again).2 0 _ rfl
    rcases second _ List.mem_cons_self with all | none
    · exact absurd (all "p=1" List.mem_cons_self).2 (by decide)
    · exact none

end Scheduler

end TableMigration
