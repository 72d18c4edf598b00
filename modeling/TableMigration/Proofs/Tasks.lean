import Mathlib.Data.List.Nodup
import TableMigration.Proofs.Lists
import TableMigration.Proofs.Stages
import TableMigration.Task

/-!
# Tasks: shape, readiness, and new tasks

The shape of a task is the actions and ids of its stages, which nothing ever changes. In a well
formed task actions ascend, so that a stage is found, read and changed in one place. A refreshed
task that is ready for an action has all the earlier stages done, not only stored as succeeded.
-/

namespace TableMigration

namespace Task

def shape (t : Task) : List (Action × List String) :=
  t.stages.map fun s => (s.action, s.ids)

structure WellFormed (t : Task) : Prop where
  ascending : t.actions.Pairwise (·.rank < ·.rank)
  stages : ∀ s ∈ t.stages, s.WellFormed
  nonempty : t.stages ≠ []

def Done (t : Task) : Prop :=
  ∀ s ∈ t.stages, s.Done

theorem actions_eq_of_shape {t t' : Task} (h : t'.shape = t.shape) : t'.actions = t.actions := by
  simpa [shape, actions, Function.comp_def] using congrArg (List.map Prod.fst) h

theorem exists_stage_of_shape {t t' : Task} (h : t'.shape = t.shape) {s : Stage} (hs : s ∈ t'.stages) :
    ∃ s₀ ∈ t.stages, s₀.action = s.action ∧ s₀.ids = s.ids := by
  have listed : (s.action, s.ids) ∈ t.shape := h ▸ List.mem_map_of_mem hs
  obtain ⟨s₀, hs₀, same⟩ := List.mem_map.mp listed
  exact ⟨s₀, hs₀, Prod.mk.inj same⟩

theorem WellFormed.of_shape {t t' : Task} (wf : t.WellFormed) (h : t'.shape = t.shape) :
    t'.WellFormed := by
  have actions := actions_eq_of_shape h
  refine ⟨actions ▸ wf.ascending, fun s hs => ?_, fun he => wf.nonempty ?_⟩
  · obtain ⟨s₀, hs₀, ha, hi⟩ := exists_stage_of_shape h hs
    refine ⟨hi ▸ (wf.stages s₀ hs₀).ids, fun hc => ?_⟩
    have empty := (wf.stages s₀ hs₀).compare (ha ▸ hc)
    rw [← Stage.ids_eq_nil_iff, hi, Stage.ids_eq_nil_iff] at empty
    exact empty
  · simpa [Task.actions, he] using actions.symm

theorem WellFormed.nodup {t : Task} (wf : t.WellFormed) : t.actions.Nodup :=
  wf.ascending.imp fun h he => by rw [he] at h; exact Nat.lt_irrefl _ h

/-! ## One stage in its place -/

def Cleared (t : Task) (a : Action) : Prop :=
  ∀ b ∈ t.stages, b.action.rank < a.rank → b.Done

def replace (t : Task) (s : Stage) : Task :=
  t.updateStage s.action fun _ => s

theorem mem_of_stage? {t : Task} {a : Action} {s : Stage} (h : t.stage? a = some s) :
    s ∈ t.stages ∧ s.action = a :=
  ⟨List.mem_of_find?_eq_some h, by simpa using List.find?_some h⟩

section
variable {t : Task} (wf : t.WellFormed)
include wf

theorem WellFormed.eq_of_action {s s' : Stage} (hs : s ∈ t.stages) (hs' : s' ∈ t.stages)
    (h : s.action = s'.action) : s = s' :=
  List.inj_on_of_nodup_map wf.nodup hs hs' h

theorem WellFormed.stage?_of_mem {s : Stage} (hs : s ∈ t.stages) : t.stage? s.action = some s := by
  cases h : t.stage? s.action with
  | none => simpa using List.find?_eq_none.mp h s hs
  | some s' =>
    obtain ⟨hs', ha⟩ := mem_of_stage? h
    rw [wf.eq_of_action hs' hs ha]

theorem WellFormed.cleared_iff {pre post : List Stage} {s : Stage}
    (split : t.stages = pre ++ s :: post) : t.Cleared s.action ↔ ∀ b ∈ pre, b.Done := by
  have asc := wf.ascending
  rw [actions, List.pairwise_map, split, List.pairwise_append, List.pairwise_cons] at asc
  obtain ⟨-, ⟨hpost, -⟩, hpre⟩ := asc
  rw [Cleared, split]
  refine ⟨fun h b hb => ?_, fun h b hb hlt => ?_⟩
  · exact h b (List.mem_append_left _ hb) (hpre b hb s (List.mem_cons_self ..))
  · rw [List.mem_append, List.mem_cons] at hb
    rcases hb with hb | rfl | hb
    · exact h b hb
    · exact absurd hlt (Nat.lt_irrefl _)
    · exact absurd (hpost b hb) (Nat.lt_asymm hlt)

end

theorem mem_replace {t : Task} {s b : Stage} (h : b ∈ (t.replace s).stages) :
    b = s ∨ (b ∈ t.stages ∧ b.action ≠ s.action) := by
  obtain ⟨b₀, hb₀, rfl⟩ := List.mem_map.mp h
  by_cases ha : b₀.action = s.action
  · exact Or.inl (if_pos ha)
  · rw [if_neg ha]; exact Or.inr ⟨hb₀, ha⟩

theorem forall_mem_replace {P : Stage → Prop} {t : Task} {s : Stage} (hs : P s)
    (h : ∀ b ∈ t.stages, P b) : ∀ b ∈ (t.replace s).stages, P b := by
  intro b hb
  rcases mem_replace hb with rfl | ⟨hb, -⟩
  · exact hs
  · exact h b hb

theorem mem_replace_self {t : Task} {s s' : Stage} (hs : s ∈ t.stages) (ha : s'.action = s.action) :
    s' ∈ (t.replace s').stages :=
  List.mem_map.mpr ⟨s, hs, if_pos ha.symm⟩

theorem map_replace {α : Type} {f : Stage → α} {t : Task} (wf : t.WellFormed) {s s' : Stage}
    (hs : s ∈ t.stages) (ha : s'.action = s.action) (same : f s' = f s) :
    (t.replace s').stages.map f = t.stages.map f := by
  simp only [replace, updateStage, List.map_map]
  refine List.map_congr_left fun b hb => ?_
  by_cases h : b.action = s'.action
  · have : b = s := wf.eq_of_action hb hs (h.trans ha)
    simp [this, ha, same]
  · simp [h]

theorem shape_replace {t : Task} (wf : t.WellFormed) {s s' : Stage} (hs : s ∈ t.stages)
    (ha : s'.action = s.action) (hi : s'.ids = s.ids) : (t.replace s').shape = t.shape :=
  map_replace wf hs ha (Prod.ext ha hi)

theorem WellFormed.judge {t : Task} (wf : t.WellFormed) {s : Stage} (hs : s ∈ t.stages)
    (p : Progress) : (t.replace { s with progress := p }).WellFormed :=
  wf.of_shape (shape_replace wf hs rfl rfl)

theorem stage?_replace (t : Task) (s : Stage) (b : Action) :
    (t.replace s).stage? b = if b = s.action then (t.stage? b).map fun _ => s else t.stage? b := by
  have same : ((fun u : Stage => u.action == b) ∘ fun u => if u.action = s.action then s else u) =
      fun u => u.action == b := by
    funext u
    by_cases h : u.action = s.action <;> simp [h]
  rw [stage?, replace, updateStage, List.find?_map, same, stage?]
  by_cases hb : b = s.action
  · rw [if_pos hb]
    refine Option.map_congr fun u hu => ?_
    rw [if_pos (by simpa [hb] using List.find?_some hu)]
  · rw [if_neg hb]
    refine (Option.map_congr (g := id) fun u hu => ?_).trans (congrFun Option.map_id _)
    have : u.action = b := by simpa using List.find?_some hu
    rw [if_neg (this ▸ hb), id_eq]

theorem finish_of_running {t : Task} (wf : t.WellFormed) {s : Stage} (hs : s ∈ t.stages) {id : String}
    (running : s.unitProgress? id = some .running) (o : Outcome) :
    (t.finish s.action id o).1 = t.replace (s.setUnit id o.progress) := by
  have same : ∀ b ∈ t.stages, (if b.action = s.action then (b.finish id o).1 else b) =
      if b.action = s.action then s.setUnit id o.progress else b := fun b hb => by
    by_cases h : b.action = s.action
    · rw [if_pos h, if_pos h, wf.eq_of_action hb hs h, Stage.finish, if_pos running]
    · rw [if_neg h, if_neg h]
  have settled : (s.finish id o).2 = true := by rw [Stage.finish, if_pos running]
  simp only [finish, wf.stage?_of_mem hs, settled, if_true]
  exact congrArg (fun stages => { t with stages }) (List.map_congr_left same)

/-- A settled unit was running in its stage; any other leaves the task as it is. -/
theorem finish_cases {t : Task} (wf : t.WellFormed) (a : Action) (id : String) (o : Outcome) :
    (t.finish a id o).1 = t ∨ ∃ s ∈ t.stages, s.action = a ∧ s.unitProgress? id = some .running ∧
      (t.finish a id o).1 = t.replace (s.setUnit id o.progress) := by
  cases hs : t.stage? a with
  | none => exact Or.inl (by rw [finish, hs])
  | some s =>
    obtain ⟨hm, rfl⟩ := mem_of_stage? hs
    by_cases running : s.unitProgress? id = some .running
    · exact Or.inr ⟨s, hm, rfl, running, finish_of_running wf hm running o⟩
    · exact Or.inl (by simp [finish, hs, Stage.finish, running])

/-! ## Refreshing and readiness -/

theorem refreshStages_cons (s : Stage) (rest : List Stage) : refreshStages (s :: rest) =
    s.refresh :: if s.liveProgress = .failed then rest else refreshStages rest := by
  rw [refreshStages]
  by_cases hs : s.liveProgress = .failed <;> simp [hs]

/-- Refreshing reaches all stages, or those up to the first that has failed. -/
theorem refreshStages_cases : ∀ ss : List Stage,
    ((∀ s ∈ ss, s.liveProgress ≠ .failed) ∧ refreshStages ss = ss.map Stage.refresh) ∨
    ∃ pre s post, ss = pre ++ s :: post ∧ (∀ b ∈ pre, b.liveProgress ≠ .failed) ∧
      s.liveProgress = .failed ∧ refreshStages ss = pre.map Stage.refresh ++ s.refresh :: post
  | [] => Or.inl ⟨by simp, rfl⟩
  | s :: rest => by
    by_cases hs : s.liveProgress = .failed
    · exact Or.inr ⟨[], s, rest, rfl, by simp, hs, by rw [refreshStages_cons, if_pos hs]; rfl⟩
    · have step : refreshStages (s :: rest) = s.refresh :: refreshStages rest := by
        rw [refreshStages_cons, if_neg hs]
      rcases refreshStages_cases rest with ⟨hrest, he⟩ | ⟨pre, u, post, rfl, hpre, hu, he⟩
      · exact Or.inl ⟨List.forall_mem_cons.mpr ⟨hs, hrest⟩, by rw [step, he]; rfl⟩
      · exact Or.inr ⟨s :: pre, u, post, rfl, List.forall_mem_cons.mpr ⟨hs, hpre⟩, hu,
          by rw [step, he]; rfl⟩

theorem refreshStages_parts (ss : List Stage) :
    ∃ pre post, ss = pre ++ post ∧ refreshStages ss = pre.map Stage.refresh ++ post := by
  rcases refreshStages_cases ss with ⟨-, he⟩ | ⟨pre, s, post, rfl, -, -, he⟩
  · exact ⟨ss, [], by simp, by simpa using he⟩
  · exact ⟨pre ++ [s], post, by simp, by simpa using he⟩

theorem forall_mem_refreshStages {P : Stage → Prop} (hP : ∀ s, P s → P s.refresh) {ss : List Stage}
    (h : ∀ s ∈ ss, P s) : ∀ s ∈ refreshStages ss, P s := by
  obtain ⟨pre, post, rfl, he⟩ := refreshStages_parts ss
  intro s hs
  rw [he, List.mem_append] at hs
  rcases hs with hs | hs
  · obtain ⟨s₀, hs₀, rfl⟩ := List.mem_map.mp hs
    exact hP s₀ (h s₀ (List.mem_append_left _ hs₀))
  · exact h s (List.mem_append_right _ hs)

theorem map_refreshStages {α : Type} (f : Stage → α) (hf : ∀ s, f s.refresh = f s)
    (ss : List Stage) : (refreshStages ss).map f = ss.map f := by
  obtain ⟨pre, post, rfl, he⟩ := refreshStages_parts ss
  simp [he, Function.comp_def, hf]

theorem shape_refresh (t : Task) : t.refresh.shape = t.shape :=
  map_refreshStages _ (fun _ => rfl) t.stages

theorem map_stage?_refresh {α : Type} (f : Stage → α) (hf : ∀ s, f s.refresh = f s) (t : Task)
    (a : Action) : (t.refresh.stage? a).map f = (t.stage? a).map f := by
  have read : ∀ ss : List Stage, (ss.find? (·.action == a)).map f =
      ((ss.map fun s => (s.action, f s)).find? (·.1 == a)).map (·.2) := by
    intro ss
    rw [List.find?_map, Option.map_map]
    rfl
  have same := map_refreshStages (fun s => (s.action, f s)) (fun s => Prod.ext rfl (hf s)) t.stages
  unfold stage?
  rw [read, read, refresh, same]

theorem done_refresh {t : Task} : t.refresh.Done ↔ t.Done := by
  obtain ⟨pre, post, hs, he⟩ := refreshStages_parts t.stages
  show (∀ s ∈ refreshStages t.stages, s.Done) ↔ ∀ s ∈ t.stages, s.Done
  rw [he, hs]
  simp only [List.forall_mem_append, List.forall_mem_map, Stage.done_refresh]

theorem mem_of_split {t : Task} {pre post : List Stage} {s : Stage}
    (split : t.stages = pre ++ s :: post) : s ∈ t.stages := by
  rw [split]; simp

theorem progress_refresh_eq_succeeded_iff {t : Task} (h : t.stages ≠ []) :
    t.refresh.progress = .succeeded ↔ t.Done := by
  show Progress.aggregate ((refreshStages t.stages).map (·.progress)) = _ ↔ _
  rw [Progress.aggregate_eq_succeeded_iff]
  rcases refreshStages_cases t.stages with ⟨-, he⟩ | ⟨pre, s, post, hs, -, hf, he⟩
  · simp [he, h, Done, ← Stage.liveProgress_eq_succeeded_iff]
  · refine ⟨fun ⟨_, hall⟩ => ?_, fun hd => ?_⟩
    · have := hall s.liveProgress (by rw [he]; simp)
      rw [hf] at this; cases this
    · have := Stage.liveProgress_eq_succeeded_iff.mpr (hd s (mem_of_split hs))
      rw [hf] at this; cases this

theorem split_of_readyIn {a : Action} : ∀ {ss : List Stage}, readyIn a (refreshStages ss) = true →
    ∃ pre s post, refreshStages ss = pre ++ s :: post ∧ s.action = a ∧
      (∀ b ∈ pre, b.Done) ∧ s.acceptsWork = true
  | [], h => by simp [refreshStages, readyIn] at h
  | s :: rest, h => by
    rw [refreshStages_cons] at h ⊢
    rw [readyIn, Stage.refresh_action] at h
    by_cases ha : s.action = a
    · rw [if_pos ha] at h
      exact ⟨[], s.refresh, _, rfl, ha, by simp, h⟩
    · rw [if_neg ha, Bool.and_eq_true, beq_iff_eq, Stage.refresh_progress] at h
      obtain ⟨hs, hr⟩ := h
      rw [if_neg (by rw [hs]; decide)] at hr ⊢
      obtain ⟨pre, u, post, he, hu, hpre, hw⟩ := split_of_readyIn hr
      have hd : s.refresh.Done := Stage.done_refresh.mpr (Stage.liveProgress_eq_succeeded_iff.mp hs)
      exact ⟨s.refresh :: pre, u, post, by rw [he]; rfl, hu, List.forall_mem_cons.mpr ⟨hd, hpre⟩, hw⟩

theorem ready_cases {t : Task} (wf : t.WellFormed) {a : Action} (h : t.refresh.isReady a = true) :
    ∃ s ∈ t.refresh.stages, s.action = a ∧ t.refresh.Cleared a ∧ s.acceptsWork = true := by
  obtain ⟨pre, s, post, split, rfl, hpre, hw⟩ := split_of_readyIn h
  have wf' := wf.of_shape (shape_refresh t)
  exact ⟨s, mem_of_split split, rfl, (wf'.cleared_iff split).mpr hpre, hw⟩

/-! ## New and resumed tasks -/

/-- A task as it is made for a plan, perhaps with a destination, before anything has started. -/
def Fresh (t : Task) : Prop :=
  ∃ plan seeds, ofPlan t.name plan seeds = .ok { t with destination := none }

theorem seedStage_eq_ok {name : String} {seeds : PerAction (List String)} {a : Action} {s : Stage}
    (h : seedStage name seeds a = .ok s) :
    ∃ ids, s = .ofIds a ids ∧ (a.isCompare = true → ids = []) := by
  unfold seedStage at h
  cases hs : seeds a with
  | none =>
    by_cases hc : a.isCompare = true
    · simp only [hs, hc, if_true, Except.ok.injEq] at h
      exact ⟨[], h.symm, fun _ => rfl⟩
    · simp [hs, hc] at h
  | some ids =>
    by_cases hc : a.isCompare = true
    · simp [hs, hc] at h
    · simp only [hs, hc, if_false, Except.ok.injEq, Bool.false_eq_true] at h
      exact ⟨ids, h.symm, fun hc' => absurd hc' hc⟩

theorem ofPlan_eq_ok {name : String} {plan : Plan} {seeds : PerAction (List String)} {t : Task}
    (h : ofPlan name plan seeds = .ok t) : ∃ stages, t = ⟨name, none, stages, .new⟩ ∧
      List.Forall₂ (fun a s => seedStage name seeds a = .ok s) plan.actions stages := by
  unfold ofPlan at h
  cases hm : plan.actions.mapM (seedStage name seeds) with
  | error e => rw [hm] at h; cases h
  | ok stages =>
    rw [hm] at h
    refine ⟨stages, ?_, mapM_eq_ok_iff.mp hm⟩
    cases hx : Action.catalog.find? fun a => (seeds a).isSome && !plan.contains a with
    | some extra => simp [bind, Except.bind, hx] at h
    | none => simpa [bind, Except.bind, hx] using h.symm

theorem actions_of_ofPlan {plan : Plan} {seeds : PerAction (List String)} {t : Task}
    (h : ofPlan t.name plan seeds = .ok { t with destination := none }) : t.actions = plan.actions := by
  obtain ⟨stages, same, made⟩ := ofPlan_eq_ok h
  have stages_eq : t.stages = stages := congrArg Task.stages same
  rw [actions, stages_eq]
  clear same stages_eq
  generalize plan.actions = actions at made
  induction made with
  | nil => rfl
  | cons first _ ih =>
    obtain ⟨ids, rfl, -⟩ := seedStage_eq_ok first
    exact congrArg (_ :: ·) ih

theorem Fresh.stages_of_plan {t : Task} (h : t.Fresh) : ∃ plan : Plan, List.Forall₂
    (fun a s => ∃ ids, s = Stage.ofIds a ids ∧ (a.isCompare = true → ids = [])) plan.actions t.stages := by
  obtain ⟨plan, seeds, h⟩ := h
  obtain ⟨stages, ht, hs⟩ := ofPlan_eq_ok h
  have : t.stages = stages := congrArg Task.stages ht
  exact ⟨plan, this ▸ hs.imp fun a s => seedStage_eq_ok⟩

theorem Fresh.stage_eq {t : Task} (h : t.Fresh) {s : Stage} (hs : s ∈ t.stages) :
    ∃ ids, s = Stage.ofIds s.action ids ∧ (s.action.isCompare = true → ids = []) := by
  obtain ⟨plan, hall⟩ := h.stages_of_plan
  obtain ⟨a, -, ids, rfl, hc⟩ := exists_related_of_mem hall hs
  exact ⟨ids, rfl, hc⟩

theorem Fresh.wellFormed {t : Task} (h : t.Fresh) : t.WellFormed := by
  obtain ⟨plan, seeds, made⟩ := id h
  have actions : t.actions = plan.actions := actions_of_ofPlan made
  refine ⟨actions ▸ plan.ascending, fun s hs => ?_, fun he => plan.actions_ne_nil ?_⟩
  · obtain ⟨ids, he, hc⟩ := h.stage_eq hs
    rw [he]
    refine ⟨?_, fun h => by simp [Stage.ofIds, hc h, Ordered.ofKeys]⟩
    have hp := Ordered.pairwise_ofKeys ids
    simpa [Stage.ids, Stage.ofIds, Function.comp_def] using hp
  · rw [← actions, Task.actions, he]; rfl

theorem Fresh.progress_eq {t : Task} (h : t.Fresh) : t.progress = .new := by
  obtain ⟨plan, seeds, made⟩ := h
  obtain ⟨stages, he, -⟩ := ofPlan_eq_ok made
  exact congrArg Task.progress he

theorem Fresh.stage_new {t : Task} (h : t.Fresh) {s : Stage} (hs : s ∈ t.stages) :
    s.progress = .new ∧ ∀ u ∈ s.units, u.progress = .new := by
  obtain ⟨ids, he, -⟩ := h.stage_eq hs
  rw [he]
  exact ⟨rfl, by simp [Stage.ofIds]⟩

theorem Fresh.not_begun {t : Task} (h : t.Fresh) {s : Stage} (hs : s ∈ t.stages) : ¬s.Begun := by
  obtain ⟨hp, hu⟩ := h.stage_new hs
  rintro (⟨u, hm, hne⟩ | ⟨-, hne⟩)
  · exact hne (hu u hm)
  · exact hne hp

theorem shape_assumeSucceeded (t : Task) : t.assumeSucceeded.shape = t.shape := by
  simp [shape, assumeSucceeded, Stage.assumeSucceeded, Stage.ids, Function.comp_def]

theorem done_assumeSucceeded (t : Task) : t.assumeSucceeded.Done := by
  intro s hs
  obtain ⟨s₀, -, rfl⟩ := List.mem_map.mp hs
  exact ⟨by simp [Stage.assumeSucceeded], fun _ => rfl⟩

end Task

end TableMigration
