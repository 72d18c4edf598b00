import TableMigration.Proofs.DependencyOrder

/-!
# Progress only moves forward

A unit goes from new to running and from there to a terminal progress. What is stored for stages and
tasks is written without a look at what stood there; it moves upward all the same, because it always
lags behind the progress of the units, which moves upward itself.
-/

namespace TableMigration

namespace Progress

inductive Step : Progress → Progress → Prop
  | start : Step new running
  | settle (o : Outcome) : Step running o.progress

def height : Progress → Nat
  | new => 0
  | running => 1
  | succeeded | failed => 2

/-- Upward in `new < running < terminal`; nothing lies above a terminal progress. -/
def Rises (p q : Progress) : Prop :=
  p = q ∨ p.height < q.height

instance (p q : Progress) : Decidable (p.Rises q) :=
  inferInstanceAs (Decidable (_ ∨ _))

theorem Rises.refl (p : Progress) : p.Rises p :=
  Or.inl rfl

theorem Rises.trans {p q r : Progress} (h : p.Rises q) (h' : q.Rises r) : p.Rises r := by
  rcases h with rfl | h
  · exact h'
  · rcases h' with rfl | h'
    · exact Or.inr h
    · exact Or.inr (Nat.lt_trans h h')

theorem height_le (p : Progress) : p.height ≤ 2 := by
  cases p <;> decide

theorem Rises.eq_of_terminal {p q : Progress} (h : p.Rises q) (terminal : p.isTerminal = true) :
    q = p := by
  rcases h with rfl | lt
  · rfl
  · have top : p.height = 2 := by
      cases p with
      | new => cases terminal
      | running => cases terminal
      | succeeded => rfl
      | failed => rfl
    have := q.height_le
    omega

theorem Rises.of_new (p : Progress) : new.Rises p := by
  cases p <;> decide

theorem Step.rises {p q : Progress} (h : Step p q) : p.Rises q := by
  cases h with
  | start => decide
  | settle o => cases o <;> decide

theorem Rises.join {p p' q q' : Progress} (hp : p.Rises p') (hq : q.Rises q') :
    (p.join q).Rises (p'.join q') := by
  revert hp hq
  cases p <;> cases p' <;> cases q <;> cases q' <;> decide

theorem Rises.aggregate {ps qs : List Progress} (h : List.Forall₂ Rises ps qs) :
    (Progress.aggregate ps).Rises (Progress.aggregate qs) := by
  cases h with
  | nil => exact .refl _
  | cons head rest => exact List.rel_foldl (fun _ _ hp _ _ hq => hp.join hq) head rest

theorem Rises.eq_new {p : Progress} (h : p.Rises new) : p = new := by
  rcases h with rfl | lt
  · rfl
  · exact absurd lt (Nat.not_lt_zero _)

theorem rises_of_steps {p q : Progress} (h : Relation.ReflTransGen Step p q) : p.Rises q := by
  induction h with
  | refl => exact .refl _
  | tail _ step ih => exact ih.trans step.rises

end Progress

theorem forall₂_trans {α : Type} {R : α → α → Prop} (trans : ∀ x y z, R x y → R y z → R x z)
    {xs ys zs : List α} (h : List.Forall₂ R xs ys) (h' : List.Forall₂ R ys zs) :
    List.Forall₂ R xs zs := by
  induction h generalizing zs with
  | nil => exact h'
  | cons head _ ih =>
    cases h' with
    | cons head' rest' => exact .cons (trans _ _ _ head head') (ih rest')

theorem countP_le_of_forall₂ {α β : Type} {R : α → β → Prop} {p : α → Bool} {q : β → Bool}
    (step : ∀ x y, R x y → p x = true → q y = true) {xs : List α} {ys : List β}
    (h : List.Forall₂ R xs ys) : xs.countP p ≤ ys.countP q := by
  induction h with
  | nil => exact Nat.le_refl _
  | @cons x y xs ys head _ ih =>
    rw [List.countP_cons, List.countP_cons]
    by_cases hx : p x = true
    · rw [if_pos hx, if_pos (step x y head hx)]
      omega
    · rw [if_neg hx]
      omega

open Progress (Rises Step)

/-! ## Stages -/

namespace Stage

structure Advances (s s' : Stage) : Prop where
  action_eq : s'.action = s.action
  units : List.Forall₂
    (fun u u' => u'.id = u.id ∧ Relation.ReflTransGen Step u.progress u'.progress) s.units s'.units
  progress : s.progress.Rises s'.progress

/-- What is stored has yet to rise to what the units say. -/
def Lags (s : Stage) : Prop :=
  s.progress.Rises s.liveProgress

section
variable {s s' s'' : Stage}

theorem Advances.refl (s : Stage) : s.Advances s :=
  ⟨rfl, List.forall₂_same.mpr fun _ _ => ⟨rfl, .refl⟩, .refl _⟩

theorem Advances.trans (h : s.Advances s') (h' : s'.Advances s'') : s.Advances s'' := by
  refine ⟨h'.action_eq.trans h.action_eq, ?_, h.progress.trans h'.progress⟩
  apply forall₂_trans _ h.units h'.units
  rintro u u' u'' ⟨same, steps⟩ ⟨same', steps'⟩
  exact ⟨same'.trans same, steps.trans steps'⟩

theorem Advances.live (h : s.Advances s') : s.liveProgress.Rises s'.liveProgress := by
  have lengths := h.units.length_eq
  by_cases empty : s.units = []
  · have empty' : s'.units = [] := by simpa [empty] using lengths.symm
    rw [liveProgress_of_empty empty, liveProgress_of_empty empty']
    exact h.progress
  · have nonempty' : s'.units ≠ [] := by
      intro empty'
      rw [empty', List.length_nil, List.length_eq_zero_iff] at lengths
      exact empty lengths
    rw [liveProgress_of_units empty, liveProgress_of_units nonempty']
    apply Rises.aggregate
    rw [List.forall₂_map_left_iff, List.forall₂_map_right_iff]
    exact h.units.imp fun u u' steps => Progress.rises_of_steps steps.2

theorem advances_setUnit (nodup : s.ids.Nodup) {id : String} {p q : Progress}
    (hp : s.unitProgress? id = some p) (step : Step p q) : s.Advances (s.setUnit id q) := by
  refine ⟨rfl, ?_, .refl _⟩
  unfold setUnit
  rw [List.forall₂_map_right_iff, List.forall₂_same]
  intro u hu
  by_cases h : u.id = id
  · have found := unitProgress?_of_mem nodup hu
    rw [h, hp] at found
    rw [if_pos h, ← Option.some.inj found]
    exact ⟨rfl, .single step⟩
  · rw [if_neg h]
    exact ⟨rfl, .refl⟩

theorem Change.advances {w : Conduct} {owner : Nat} {cleared : Prop}
    (ch : s.Change w owner cleared s') (nodup : s.ids.Nodup) : s.Advances s' := by
  cases ch with
  | start _ new => exact advances_setUnit nodup new .start
  | settle running _ => exact advances_setUnit nodup running (.settle _)
  | @judge p _ _ new _ =>
    refine ⟨rfl, List.forall₂_same.mpr fun _ _ => ⟨rfl, .refl⟩, ?_⟩
    rw [new]
    exact .of_new p

theorem lags_refresh (s : Stage) : s.refresh.Lags := by
  unfold Lags
  rw [refresh_progress, refresh_liveProgress]
  exact .refl _

theorem Lags.change {w : Conduct} {owner : Nat} {cleared : Prop} (h : s.Lags)
    (ch : s.Change w owner cleared s') (nodup : s.ids.Nodup) : s'.Lags := by
  have rises := (ch.advances nodup).live
  cases ch with
  | start _ _ => exact Rises.trans h rises
  | settle _ _ => exact Rises.trans h rises
  | @judge p _ empty _ _ =>
    unfold Lags
    rw [liveProgress_of_empty (s := { s with progress := p }) empty]
    exact .refl _

theorem Lags.of_new (h : s.progress = .new) : s.Lags := by
  unfold Lags
  rw [h]
  exact .of_new _

theorem Lags.of_done (done : s.Done) (h : s.progress = .succeeded) : s.Lags := by
  unfold Lags
  rw [h, liveProgress_eq_succeeded_iff.mpr done]
  exact .refl _

end

end Stage

/-! ## Tasks -/

namespace Task

structure Advances (t t' : Task) : Prop where
  name_eq : t'.name = t.name
  stages : List.Forall₂ Stage.Advances t.stages t'.stages
  progress : t.progress.Rises t'.progress

/-- The progress of all units and verdicts taken together. -/
def liveProgress (t : Task) : Progress :=
  Progress.aggregate (t.stages.map Stage.liveProgress)

structure Lags (t : Task) : Prop where
  progress : t.progress.Rises t.liveProgress
  stages : ∀ s ∈ t.stages, s.Lags

/-- Although refreshing stops at a stage that has failed, it misses nothing of the whole. -/
theorem refresh_progress (t : Task) : t.refresh.progress = t.liveProgress := by
  show Progress.aggregate ((refreshStages t.stages).map (·.progress)) = t.liveProgress
  unfold liveProgress
  rcases refreshStages_cases t.stages with ⟨-, he⟩ | ⟨pre, s, post, split, -, failed, he⟩
  · rw [he, List.map_map]
    rfl
  · have stored : Progress.failed ∈ (refreshStages t.stages).map (·.progress) := by simp [he, failed]
    have live : Progress.failed ∈ t.stages.map Stage.liveProgress := by simp [split, failed]
    rw [Progress.aggregate_eq_failed_iff.mpr stored, Progress.aggregate_eq_failed_iff.mpr live]

theorem liveProgress_refresh (t : Task) : t.refresh.liveProgress = t.liveProgress := by
  unfold liveProgress
  rw [refresh, map_refreshStages _ Stage.refresh_liveProgress]

section
variable {w : Conduct} {owner : Nat} {t t' t'' : Task}

theorem Advances.refl (t : Task) : t.Advances t :=
  ⟨rfl, List.forall₂_same.mpr fun s _ => .refl s, .refl _⟩

theorem Advances.trans (h : t.Advances t') (h' : t'.Advances t'') : t.Advances t'' := by
  refine ⟨h'.name_eq.trans h.name_eq, ?_, h.progress.trans h'.progress⟩
  apply forall₂_trans _ h.stages h'.stages
  intro s s' s'' before after
  exact before.trans after

theorem Lags.refresh (h : t.Lags) : t.refresh.Lags := by
  constructor
  · rw [refresh_progress, liveProgress_refresh]
    exact .refl _
  · exact forall_mem_refreshStages (fun s _ => s.lags_refresh) h.stages

theorem Lags.advances_refresh (h : t.Lags) : t.Advances t.refresh := by
  refine ⟨rfl, ?_, refresh_progress t ▸ h.progress⟩
  obtain ⟨pre, post, split, he⟩ := refreshStages_parts t.stages
  show List.Forall₂ Stage.Advances t.stages (refreshStages t.stages)
  rw [he, split]
  apply List.rel_append
  · rw [List.forall₂_map_right_iff, List.forall₂_same]
    intro s hs
    have lags : s.Lags := h.stages s (by simp [split, hs])
    exact ⟨rfl, (Stage.Advances.refl s).units, lags⟩
  · exact List.forall₂_same.mpr fun s _ => .refl s

theorem advances_replace (wf : t.WellFormed) {s s' : Stage} (hs : s ∈ t.stages)
    (advances : s.Advances s') : t.Advances (t.replace s') := by
  refine ⟨rfl, ?_, .refl _⟩
  unfold replace updateStage
  rw [List.forall₂_map_right_iff, List.forall₂_same]
  intro b hb
  by_cases h : b.action = s'.action
  · rw [if_pos h, wf.eq_of_action hb hs (h.trans advances.action_eq)]
    exact advances
  · rw [if_neg h]
    exact .refl b

theorem Advances.live (h : t.Advances t') : t.liveProgress.Rises t'.liveProgress := by
  apply Rises.aggregate
  rw [List.forall₂_map_left_iff, List.forall₂_map_right_iff]
  exact h.stages.imp fun _ _ advances => advances.live

theorem Move.advances (wf : t.WellFormed) (move : Move w owner t t') (lags : t.Lags) :
    t.Advances t' ∧ t'.Lags := by
  cases move with
  | refresh => exact ⟨lags.advances_refresh, lags.refresh⟩
  | @change s s' found ch =>
    have nodup := (wf.stages s found).nodup
    have advances := advances_replace wf found (ch.advances nodup)
    refine ⟨advances, lags.progress.trans advances.live, ?_⟩
    exact forall_mem_replace ((lags.stages s found).change ch nodup) lags.stages

theorem Moves.advances (wf : t.WellFormed) (moves : Moves w owner t t') (lags : t.Lags) :
    t.Advances t' ∧ t'.Lags := by
  induction moves with
  | refl => exact ⟨.refl t, lags⟩
  | tail moves move ih =>
    obtain ⟨before, lags'⟩ := ih
    obtain ⟨after, lags''⟩ := move.advances (Moves.wellFormed wf moves) lags'
    exact ⟨before.trans after, lags''⟩

theorem Lags.done (lags : t.Lags) (wf : t.WellFormed) (stored : t.progress = .succeeded) : t.Done := by
  have live := lags.progress.eq_of_terminal (by rw [stored]; rfl)
  rw [stored, ← t.refresh_progress] at live
  exact (progress_refresh_eq_succeeded_iff wf.nonempty).mp live

theorem Fresh.lags (h : t.Fresh) : t.Lags := by
  refine ⟨?_, fun s hs => .of_new (h.stage_new hs).1⟩
  rw [h.progress_eq]
  exact .of_new _

theorem lags_assumeSucceeded (wf : t.WellFormed) : t.assumeSucceeded.Lags := by
  have done := done_assumeSucceeded t
  have nonempty : t.assumeSucceeded.stages ≠ [] := by
    simpa [assumeSucceeded] using wf.nonempty
  constructor
  · have live := (progress_refresh_eq_succeeded_iff nonempty).mpr done
    rw [refresh_progress] at live
    rw [live]
    exact .refl _
  · intro s hs
    refine .of_done (done s hs) ?_
    obtain ⟨s₀, -, rfl⟩ := List.mem_map.mp hs
    rfl

end

end Task

/-! ## Runs -/

namespace Evolves

variable {w : Conduct} {k : Nat} {ts ts' : List Task}

theorem advances (h : Evolves w k ts ts') (wf : ∀ t ∈ ts, t.WellFormed) (lags : ∀ t ∈ ts, t.Lags) :
    List.Forall₂ Task.Advances ts ts' := by
  rw [List.forall₂_iff_get]
  refine ⟨h.length_eq.symm, fun i hi hi' => ?_⟩
  have at_i : ts[i]? = some (ts.get ⟨i, hi⟩) := List.getElem?_eq_getElem hi
  obtain ⟨t', at_i', moves⟩ := h.moves i _ at_i
  have mem := List.get_mem ts ⟨i, hi⟩
  obtain rfl : ts'.get ⟨i, hi'⟩ = t' := Option.some.inj ((List.getElem?_eq_getElem hi').symm.trans at_i')
  exact (moves.advances (wf _ mem) (lags _ mem)).1

theorem lags (h : Evolves w k ts ts') (wf : ∀ t ∈ ts, t.WellFormed) (lags : ∀ t ∈ ts, t.Lags) :
    ∀ t ∈ ts', t.Lags :=
  h.keeps wf (fun wf move lags => (move.advances wf lags).2) lags

end Evolves

theorem Scheduler.new_lags {σ δ ν : Type} {tasks : List Task} (fresh : ∀ t ∈ tasks, t.Fresh)
    (plan : Plan) (gate : Gate) (log : FailoverLog σ) (d : δ) (v : ν) :
    ∀ t ∈ (Scheduler.new plan tasks gate log d v).tasks, t.Lags :=
  new_keeps (fun t ht => (fresh t ht).lags)
    (fun t ht => Task.lags_assumeSucceeded (fresh t ht).wellFormed) plan gate log d v

end TableMigration
