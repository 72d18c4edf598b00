import Mathlib.Logic.Relation
import TableMigration.Proofs.Tasks
import TableMigration.Scheduler

/-!
# Moves of one task

All that ever happens to a task is that it is refreshed, that a unit is started or settled, and
that a stage without units is judged. A conduct says what the outside may answer and how it may
settle units; a property that every move keeps holds along a whole run under that conduct.
-/

namespace TableMigration

inductive Request
  | submit (h : Handle) (receipt : Receipt)
  | validate (owner : Nat) (a : Action) (verdict : Verdict)
  deriving DecidableEq

/-- Answers the outside may give, and outcomes it may settle the unit of a task, given by its
position, with. What is settled while it is submitted is settled like any other. -/
structure Conduct where
  answers : Request → Prop
  settles : Nat → Action → String → Outcome → Prop
  settles_of_finished : ∀ (h : Handle) (o : Outcome),
    answers (.submit h (.finished o)) → settles h.owner h.action h.unit o

def Conduct.any : Conduct where
  answers _ := True
  settles _ _ _ _ := True
  settles_of_finished _ _ _ := trivial

/-- What a stage without units can come to: the compare stage by a verdict, another by being
passed over. -/
inductive Conduct.Decides (w : Conduct) (owner : Nat) (a : Action) : Progress → Prop
  | verdict {passed : Bool} (compare : a.isCompare = true)
      (answers : w.answers (.validate owner a (.ofBool passed))) :
      Decides w owner a (if passed then .succeeded else .failed)
  | nothing (gated : a.isCompare = false) : Decides w owner a .succeeded

theorem Conduct.Decides.isTerminal {w : Conduct} {owner : Nat} {a : Action} {p : Progress}
    (h : w.Decides owner a p) : p = .succeeded ∨ p = .failed := by
  cases h with
  | @verdict passed _ _ => cases passed <;> simp
  | nothing _ => exact Or.inl rfl

/-- One change of a stage. To start or to judge it, the stages before it have to be `cleared`. -/
inductive Stage.Change (w : Conduct) (owner : Nat) (cleared : Prop) (s : Stage) : Stage → Prop
  | start {id : String} (ready : cleared) (new : s.unitProgress? id = some .new) :
      Change w owner cleared s (s.setUnit id .running)
  | settle {id : String} {o : Outcome} (running : s.unitProgress? id = some .running)
      (settles : w.settles owner s.action id o) : Change w owner cleared s (s.setUnit id o.progress)
  | judge {p : Progress} (ready : cleared) (empty : s.units = []) (new : s.progress = .new)
      (decides : w.Decides owner s.action p) : Change w owner cleared s { s with progress := p }

namespace Stage.Change

variable {w : Conduct} {owner : Nat} {cleared : Prop} {s s' : Stage}

theorem action_eq (h : s.Change w owner cleared s') : s'.action = s.action := by
  cases h <;> rfl

theorem ids_eq (h : s.Change w owner cleared s') : s'.ids = s.ids := by
  cases h with
  | start => exact setUnit_ids ..
  | settle => exact setUnit_ids ..
  | judge => rfl

theorem not_done (h : s.Change w owner cleared s') : ¬s.Done := by
  intro done
  cases h with
  | start _ new => cases done.unit_eq new
  | settle running _ => cases done.unit_eq running
  | judge _ empty new _ => rw [done.2 empty] at new; cases new

end Stage.Change

namespace Task

inductive Move (w : Conduct) (owner : Nat) (t : Task) : Task → Prop
  | refresh : Move w owner t t.refresh
  | change {s s' : Stage} (found : s ∈ t.stages)
      (change : s.Change w owner (t.Cleared s.action) s') : Move w owner t (t.replace s')

def Moves (w : Conduct) (owner : Nat) : Task → Task → Prop :=
  Relation.ReflTransGen (Move w owner)

section
variable {w : Conduct} {owner : Nat} {t t' : Task}

theorem Move.name_eq (h : Move w owner t t') : t'.name = t.name := by
  cases h <;> rfl

theorem Move.shape_eq (wf : t.WellFormed) (h : Move w owner t t') : t'.shape = t.shape := by
  cases h with
  | refresh => exact shape_refresh t
  | change found change => exact shape_replace wf found change.action_eq change.ids_eq

theorem Moves.name_eq (h : Moves w owner t t') : t'.name = t.name := by
  induction h with
  | refl => rfl
  | tail _ move ih => rw [move.name_eq, ih]

theorem Moves.shape_eq (wf : t.WellFormed) (h : Moves w owner t t') : t'.shape = t.shape := by
  induction h with
  | refl => rfl
  | tail _ move ih => rw [move.shape_eq (wf.of_shape ih), ih]

theorem Moves.wellFormed (wf : t.WellFormed) (h : Moves w owner t t') : t'.WellFormed :=
  wf.of_shape (h.shape_eq wf)

theorem Moves.keeps {P : Task → Prop} (wf : t.WellFormed) (h : Moves w owner t t')
    (step : ∀ {t t'}, t.WellFormed → Move w owner t t' → P t → P t') (ht : P t) : P t' := by
  induction h with
  | refl => exact ht
  | tail moves move ih => exact step (Moves.wellFormed wf moves) move ih

theorem Moves.keeps_stages {P : Stage → Prop} (wf : t.WellFormed) (h : Moves w owner t t')
    (refresh : ∀ s, P s → P s.refresh)
    (change : ∀ {s s' cleared}, s.WellFormed → s.Change w owner cleared s' → P s → P s')
    (ht : ∀ s ∈ t.stages, P s) : ∀ s ∈ t'.stages, P s := by
  refine h.keeps (P := fun t => ∀ s ∈ t.stages, P s) wf (fun {t t'} wf move hp => ?_) ht
  cases move with
  | refresh => exact forall_mem_refreshStages refresh hp
  | change found ch => exact forall_mem_replace (change (wf.stages _ found) ch (hp _ found)) hp

/-! ## The operations as moves -/

theorem start_eq_some {a : Action} {id : String} (h : t.start a id = .ok (some t')) :
    ∃ s ∈ t.stages, s.action = a ∧ s.unitProgress? id = some .new ∧
      t' = t.replace (s.setUnit id .running) := by
  unfold start at h
  cases hs : t.stage? a with
  | none => rw [hs] at h; cases h
  | some s =>
    obtain ⟨hm, rfl⟩ := mem_of_stage? hs
    by_cases hn : s.unitProgress? id = some .new
    · simp only [hs, Stage.start?, if_pos hn, Except.ok.injEq, Option.some.injEq] at h
      exact ⟨s, hm, rfl, hn, h.symm⟩
    · simp [hs, Stage.start?, hn] at h

theorem start_ne_error {a : Action} (present : a ∈ t.actions) (id : String) (f : Fault) :
    t.start a id ≠ .error f := by
  obtain ⟨s, hs, ha⟩ := List.mem_map.mp present
  unfold start
  cases hf : t.stage? a with
  | none => exact absurd (beq_iff_eq.mpr ha) (List.find?_eq_none.mp hf s hs)
  | some s => cases hs : s.start? id <;> simp [hs]

theorem setProgress_of_mem {s : Stage} (wf : t.WellFormed) (hs : s ∈ t.stages) (p : Progress) :
    t.setProgress s.action p = .ok (t.replace { s with progress := p }) := by
  rw [setProgress, wf.stage?_of_mem hs]
  refine congrArg Except.ok (congrArg (fun stages => { t with stages }) ?_)
  refine List.map_congr_left fun b hb => ?_
  by_cases h : b.action = s.action
  · rw [if_pos h, if_pos h, wf.eq_of_action hb hs h]
  · rw [if_neg h, if_neg h]

theorem start_shape (wf : t.WellFormed) {a : Action} {id : String}
    (h : t.start a id = .ok (some t')) : t'.shape = t.shape := by
  obtain ⟨s, hs, -, -, rfl⟩ := start_eq_some h
  exact shape_replace wf hs rfl (Stage.setUnit_ids ..)

theorem finish_shape (wf : t.WellFormed) (a : Action) (id : String) (o : Outcome) :
    (t.finish a id o).1.shape = t.shape := by
  rcases finish_cases wf a id o with he | ⟨s, hs, -, -, he⟩
  · rw [he]
  · rw [he]
    exact shape_replace wf hs rfl (Stage.setUnit_ids ..)

theorem WellFormed.start (wf : t.WellFormed) {a : Action} {id : String}
    (h : t.start a id = .ok (some t')) : t'.WellFormed :=
  wf.of_shape (start_shape wf h)

theorem WellFormed.finish (wf : t.WellFormed) (a : Action) (id : String) (o : Outcome) :
    (t.finish a id o).1.WellFormed :=
  wf.of_shape (finish_shape wf a id o)

theorem moves_start {a : Action} {id : String} (cleared : t.Cleared a)
    (h : t.start a id = .ok (some t')) : Moves w owner t t' := by
  obtain ⟨s, hs, rfl, hn, rfl⟩ := start_eq_some h
  exact .single (.change hs (.start cleared hn))

theorem moves_finish (wf : t.WellFormed) {a : Action} {id : String} {o : Outcome}
    (settles : w.settles owner a id o) : Moves w owner t (t.finish a id o).1 := by
  rcases finish_cases wf a id o with he | ⟨s, hs, rfl, hr, he⟩
  · rw [he]; exact .refl
  · rw [he]; exact .single (.change hs (.settle hr settles))

end

end Task

end TableMigration
