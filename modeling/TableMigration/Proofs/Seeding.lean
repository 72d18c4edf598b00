import Mathlib.Data.List.Sort
import TableMigration.Proofs.Tasks

/-!
# What is accepted as a plan and as a task

Actions make a plan exactly if they are some of the catalog, in its order. Units make a task of a plan
exactly if they are given for its gated actions and for no others; the first action of the plan that has
units against its kind is reported, and only if there is none the first action outside the plan.
-/

namespace TableMigration

/-! ## Plans -/

theorem Action.catalog_ascending : catalog.Pairwise (·.rank < ·.rank) := by
  decide

theorem Action.sublist_catalog_iff {actions : List Action} :
    actions.Sublist catalog ↔ actions.Pairwise (·.rank < ·.rank) := by
  constructor
  · intro sub
    exact catalog_ascending.sublist sub
  · intro ascending
    have once : actions.Nodup := by
      apply ascending.imp
      intro a b lt same
      rw [same] at lt
      exact Nat.lt_irrefl _ lt
    have antisymm : Std.Antisymm fun a b : Action => a.rank < b.rank :=
      ⟨fun _ _ lt gt => absurd gt (Nat.lt_asymm lt)⟩
    exact List.sublist_of_subperm_of_pairwise (List.subperm_of_subset once fun a _ => a.mem_catalog) ascending
      catalog_ascending

theorem firstDisorder_of_pairwise {actions : List Action} (h : actions.Pairwise (·.rank < ·.rank)) :
    firstDisorder actions = none := by
  induction actions with
  | nil => rfl
  | cons a rest ih =>
    cases rest with
    | nil => rfl
    | cons b rest =>
      obtain ⟨first, later⟩ := List.pairwise_cons.mp h
      rw [firstDisorder, if_pos (first b List.mem_cons_self), ih later]

theorem Plan.ofActions_eq_ok_iff {source : Source} {actions : List Action} {plan : Plan} :
    ofActions source actions = .ok plan ↔
      (actions ≠ [] ∧ actions.Sublist Action.catalog) ∧ plan.source = source ∧ plan.actions = actions := by
  rw [Action.sublist_catalog_iff]
  constructor
  · intro made
    unfold ofActions at made
    by_cases empty : actions = []
    · rw [dif_pos empty] at made
      cases made
    · rw [dif_neg empty] at made
      split at made
      · cases made
      · next ordered =>
        cases made
        exact ⟨⟨empty, pairwise_of_firstDisorder ordered⟩, rfl, rfl⟩
  · rintro ⟨⟨nonempty, ascending⟩, rfl, rfl⟩
    unfold ofActions
    rw [dif_neg nonempty]
    split
    · next disorder =>
      rw [firstDisorder_of_pairwise ascending] at disorder
      cases disorder
    · rfl

/-! ## Units for a plan -/

namespace Task

def Fits (seeds : PerAction (List String)) (a : Action) : Prop :=
  seeds a ≠ none ↔ a ≠ .compareResults

/-- Why units make no task of a plan, given by what is reported. -/
inductive Refused (name : String) (plan : Plan) (seeds : PerAction (List String)) : PlanError → Prop
  | unitsForCompare {pre post : List Action} {a : Action} (listed : plan.actions = pre ++ a :: post)
      (before : ∀ b ∈ pre, Fits seeds b) (compare : a = .compareResults) (seeded : seeds a ≠ none) :
      Refused name plan seeds (.unitsForCompare name a)
  | unseeded {pre post : List Action} {a : Action} (listed : plan.actions = pre ++ a :: post)
      (before : ∀ b ∈ pre, Fits seeds b) (gated : a ≠ .compareResults) (missing : seeds a = none) :
      Refused name plan seeds (.unseeded name a)
  | outsidePlan {a : Action} (fits : ∀ b ∈ plan.actions, Fits seeds b) (seeded : seeds a ≠ none)
      (outside : a ∉ plan.actions)
      (lowest : ∀ b, seeds b ≠ none → b ∉ plan.actions → a.rank ≤ b.rank) :
      Refused name plan seeds (.outsidePlan name a plan.source)

/-- The task has a stage for every action of the plan and no others. The gated ones have the units they
were given, each once and in order, and nothing has started. -/
structure Seeded (plan : Plan) (seeds : PerAction (List String)) (t : Task) : Prop where
  actions : t.actions = plan.actions
  ascending : ∀ s ∈ t.stages, s.ids.Pairwise (· < ·)
  gated : ∀ s ∈ t.stages, s.action ≠ .compareResults →
    ∃ ids, seeds s.action = some ids ∧ ∀ id, id ∈ s.ids ↔ id ∈ ids
  compare : ∀ s ∈ t.stages, s.action = .compareResults → s.units = []
  units_new : ∀ s ∈ t.stages, ∀ u ∈ s.units, u.progress = .new
  stages_new : ∀ s ∈ t.stages, s.progress = .new
  refreshed : t.refresh.progress = .new

def ofSeeds (name : String) (plan : Plan) (seeds : PerAction (List String)) : Task :=
  ⟨name, none, plan.actions.map fun a => .ofIds a ((seeds a).getD []), .new⟩

section
variable {name : String} {plan : Plan} {seeds : PerAction (List String)} {a : Action}

theorem seedStage_of_fits (fits : Fits seeds a) :
    seedStage name seeds a = .ok (.ofIds a ((seeds a).getD [])) := by
  unfold Fits at fits
  unfold seedStage
  cases given : seeds a with
  | none =>
    have compare : a = .compareResults := by simpa [given] using fits
    simp [compare, Action.isCompare]
  | some ids =>
    have gated : a ≠ .compareResults := by simpa [given] using fits
    simp [gated, Action.isCompare]

theorem seedStage_compare (compare : a = .compareResults) (seeded : seeds a ≠ none) :
    seedStage name seeds a = .error (.unitsForCompare name a) := by
  obtain ⟨ids, given⟩ := Option.ne_none_iff_exists'.mp seeded
  subst compare
  rw [seedStage, given]
  rfl

theorem seedStage_unseeded (gated : a ≠ .compareResults) (missing : seeds a = none) :
    seedStage name seeds a = .error (.unseeded name a) := by
  simp [seedStage, missing, gated, Action.isCompare]

theorem lowest_of_find? {p : Action → Bool} (found : Action.catalog.find? p = some a) :
    p a = true ∧ ∀ b, p b = true → a.rank ≤ b.rank := by
  obtain ⟨holds, pre, post, split, before⟩ := List.find?_eq_some_iff_append.mp found
  refine ⟨holds, fun b hb => ?_⟩
  have sorted := Action.catalog_ascending
  have listed := b.mem_catalog
  rw [split] at sorted listed
  rcases List.mem_append.mp listed with ahead | behind
  · have skipped := before b ahead
    rw [hb] at skipped
    cases skipped
  · rcases List.mem_cons.mp behind with rfl | behind
    · exact Nat.le_refl _
    · exact Nat.le_of_lt (List.rel_of_pairwise_cons (List.pairwise_append.mp sorted).2.1 behind)

theorem find?_of_lowest {p : Action → Bool} (holds : p a = true)
    (lowest : ∀ b, p b = true → a.rank ≤ b.rank) : Action.catalog.find? p = some a := by
  cases found : Action.catalog.find? p with
  | none => exact absurd holds (List.find?_eq_none.mp found a a.mem_catalog)
  | some b =>
    obtain ⟨hb, first⟩ := lowest_of_find? found
    rw [Action.rank_injective (Nat.le_antisymm (first a holds) (lowest b hb))]

theorem ofPlan_of_fits (fits : ∀ b ∈ plan.actions, Fits seeds b) : ofPlan name plan seeds =
    match Action.catalog.find? fun b => (seeds b).isSome && !plan.contains b with
    | some extra => .error (.outsidePlan name extra plan.source)
    | none => .ok (ofSeeds name plan seeds) := by
  rw [ofPlan, mapM_of_forall fun b hb => seedStage_of_fits (fits b hb)]
  rfl

theorem seeded_outside_iff : ((seeds a).isSome && !plan.contains a) = true ↔
    seeds a ≠ none ∧ a ∉ plan.actions := by
  simp [Plan.contains, Option.isSome_iff_ne_none]

theorem ofPlan_of_refused {e : PlanError} (refused : Refused name plan seeds e) :
    ofPlan name plan seeds = .error e := by
  cases refused with
  | unitsForCompare listed before compare seeded =>
    rw [ofPlan, listed, mapM_of_first_error (fun b hb => seedStage_of_fits (before b hb))
      (seedStage_compare compare seeded)]
    rfl
  | unseeded listed before gated missing =>
    rw [ofPlan, listed, mapM_of_first_error (fun b hb => seedStage_of_fits (before b hb))
      (seedStage_unseeded gated missing)]
    rfl
  | outsidePlan fits seeded outside lowest =>
    rw [ofPlan_of_fits fits, find?_of_lowest (seeded_outside_iff.mpr ⟨seeded, outside⟩)]
    intro b hb
    obtain ⟨seeded', outside'⟩ := seeded_outside_iff.mp hb
    exact lowest b seeded' outside'

theorem ofPlan_of_keys (keys : ∀ a, seeds a ≠ none ↔ a ∈ plan.gated) :
    ofPlan name plan seeds = .ok (ofSeeds name plan seeds) := by
  have fits : ∀ b ∈ plan.actions, Fits seeds b := by
    intro b hb
    rw [Fits, keys, Plan.mem_gated, and_iff_right hb]
  rw [ofPlan_of_fits fits, List.find?_eq_none.mpr]
  intro b _ extra
  obtain ⟨seeded, outside⟩ := seeded_outside_iff.mp extra
  exact outside (Plan.mem_gated.mp ((keys b).mp seeded)).1

theorem keys_or_refused (name : String) (plan : Plan) (seeds : PerAction (List String)) :
    (∀ a, seeds a ≠ none ↔ a ∈ plan.gated) ∨ ∃ e, Refused name plan seeds e := by
  rcases forall_or_first (Fits seeds) plan.actions with fits | ⟨pre, a, post, listed, before, misfit⟩
  · cases found : Action.catalog.find? fun b => (seeds b).isSome && !plan.contains b with
    | none =>
      left
      intro a
      rw [Plan.mem_gated]
      have inside : seeds a ≠ none → a ∈ plan.actions := by
        intro seeded
        by_contra outside
        exact List.find?_eq_none.mp found a a.mem_catalog (seeded_outside_iff.mpr ⟨seeded, outside⟩)
      constructor
      · intro seeded
        exact ⟨inside seeded, (fits a (inside seeded)).mp seeded⟩
      · rintro ⟨planned, gated⟩
        exact (fits a planned).mpr gated
    | some extra =>
      obtain ⟨holds, lowest⟩ := lowest_of_find? found
      obtain ⟨seeded, outside⟩ := seeded_outside_iff.mp holds
      refine Or.inr ⟨_, .outsidePlan fits seeded outside fun b seeded' outside' => ?_⟩
      exact lowest b (seeded_outside_iff.mpr ⟨seeded', outside'⟩)
  · right
    by_cases compare : a = .compareResults
    · refine ⟨_, .unitsForCompare listed before compare ?_⟩
      simpa [Fits, compare] using misfit
    · refine ⟨_, .unseeded listed before compare ?_⟩
      simpa [Fits, compare] using misfit

theorem ofPlan_eq_ok_iff {t : Task} : ofPlan name plan seeds = .ok t ↔
    (∀ a, seeds a ≠ none ↔ a ∈ plan.gated) ∧ t = ofSeeds name plan seeds := by
  rcases keys_or_refused name plan seeds with keys | ⟨e, refused⟩
  · rw [ofPlan_of_keys keys, Except.ok.injEq, and_iff_right keys, eq_comm]
  · constructor
    · intro made
      rw [ofPlan_of_refused refused] at made
      cases made
    · rintro ⟨keys, -⟩
      have made := ofPlan_of_refused refused
      rw [ofPlan_of_keys keys] at made
      cases made

theorem ofPlan_eq_error_iff {e : PlanError} :
    ofPlan name plan seeds = .error e ↔ Refused name plan seeds e := by
  constructor
  · intro failed
    rcases keys_or_refused name plan seeds with keys | ⟨e', refused⟩
    · rw [ofPlan_of_keys keys] at failed
      cases failed
    · rw [ofPlan_of_refused refused] at failed
      cases failed
      exact refused
  · exact ofPlan_of_refused

end

theorem Fresh.progress_refresh {t : Task} (h : t.Fresh) : t.refresh.progress = .new := by
  show Progress.aggregate ((refreshStages t.stages).map (·.progress)) = .new
  rw [Progress.aggregate_eq_new_iff, List.forall_mem_map]
  have idle : ∀ s ∈ refreshStages t.stages, s.progress = .new ∧ ¬s.Begun := by
    apply forall_mem_refreshStages
    · rintro s ⟨-, idle⟩
      exact ⟨Stage.liveProgress_eq_new_iff.mpr idle, mt Stage.begun_refresh.mp idle⟩
    · intro s hs
      exact ⟨(h.stage_new hs).1, h.not_begun hs⟩
  exact fun s hs => (idle s hs).1

theorem Seeded.of_made {name : String} {plan : Plan} {seeds : PerAction (List String)} {t : Task}
    (made : ofPlan name plan seeds = .ok t) : Seeded plan seeds t := by
  obtain ⟨keys, rfl⟩ := ofPlan_eq_ok_iff.mp made
  have fresh : (ofSeeds name plan seeds).Fresh := ⟨plan, seeds, made⟩
  have wf := fresh.wellFormed
  constructor
  · simp [ofSeeds, Task.actions, Stage.ofIds, Function.comp_def]
  · intro s hs
    exact (wf.stages s hs).ids
  · intro s hs gated
    obtain ⟨a, ha, rfl⟩ := List.mem_map.mp hs
    obtain ⟨ids, given⟩ := Option.ne_none_iff_exists'.mp ((keys a).mpr (Plan.mem_gated.mpr ⟨ha, gated⟩))
    refine ⟨ids, given, fun id => ?_⟩
    simp [Stage.ids, Stage.ofIds, given, Ordered.mem_ofKeys]
  · intro s hs compare
    exact (wf.stages s hs).compare (beq_iff_eq.mpr compare)
  · intro s hs
    exact (fresh.stage_new hs).2
  · intro s hs
    exact (fresh.stage_new hs).1
  · exact fresh.progress_refresh

end Task

/-- Actions are accepted as a plan exactly if they are some of the catalog in its order, and are kept.
Units are accepted for a plan exactly if they are given for its gated actions and for no others; they make
a task with just these units, all of them new. Otherwise it is reported which action of the plan, or else
outside it, was given units against its kind. -/
theorem Plan.accepted_when_well_formed :
    (∀ (source : Source) (actions : List Action),
      ((∃ plan, Plan.ofActions source actions = .ok plan) ↔
        actions ≠ [] ∧ actions.Sublist Action.catalog) ∧
      ∀ plan, Plan.ofActions source actions = .ok plan →
        plan.source = source ∧ plan.actions = actions) ∧
    ∀ (plan : Plan) (name : String) (seeds : PerAction (List String)),
      ((∃ t, Task.ofPlan name plan seeds = .ok t) ↔ ∀ a, seeds a ≠ none ↔ a ∈ plan.gated) ∧
      (∀ t, Task.ofPlan name plan seeds = .ok t →
        t.name = name ∧ t.destination = none ∧ t.Seeded plan seeds) ∧
      ∀ e, Task.ofPlan name plan seeds = .error e ↔ Task.Refused name plan seeds e := by
  constructor
  · intro source actions
    constructor
    · constructor
      · rintro ⟨plan, made⟩
        exact (ofActions_eq_ok_iff.mp made).1
      · rintro ⟨nonempty, sub⟩
        refine ⟨⟨source, actions, nonempty, Action.sublist_catalog_iff.mp sub⟩, ?_⟩
        exact ofActions_eq_ok_iff.mpr ⟨⟨nonempty, sub⟩, rfl, rfl⟩
    · intro plan made
      exact (ofActions_eq_ok_iff.mp made).2
  · intro plan name seeds
    refine ⟨?_, ?_, fun e => Task.ofPlan_eq_error_iff⟩
    · constructor
      · rintro ⟨t, made⟩
        exact (Task.ofPlan_eq_ok_iff.mp made).1
      · intro keys
        exact ⟨_, Task.ofPlan_of_keys keys⟩
    · intro t made
      have seeded := Task.Seeded.of_made made
      obtain ⟨-, rfl⟩ := Task.ofPlan_eq_ok_iff.mp made
      exact ⟨rfl, rfl, seeded⟩

/-! ## A unit given twice, and none -/

namespace RepeatedUnit

def plan : Plan := ⟨.hive, [.createTable, .loadData, .compareResults], by decide, by decide⟩

def seeds : PerAction (List String) :=
  (PerAction.empty.insert .createTable ["b", "a", "b"]).insert .loadData []

def task : Task where
  name := "db.t"
  destination := none
  stages := [⟨.createTable, .new, [⟨"a", .new⟩, ⟨"b", .new⟩]⟩, ⟨.loadData, .new, []⟩,
    ⟨.compareResults, .new, []⟩]
  progress := .new

theorem seeded : (plan.source = .hive ∧ plan.actions = [.createTable, .loadData, .compareResults]) ∧
    (task.destination = none ∧ task.Seeded plan seeds) ∧
    Task.Refused "db.t" plan .empty (.unseeded "db.t" .createTable) := by
  obtain ⟨plans, tasks⟩ := Plan.accepted_when_well_formed
  have kept := (plans .hive [.createTable, .loadData, .compareResults]).2 plan rfl
  obtain ⟨-, made, -⟩ := tasks plan "db.t" seeds
  have unseeded := ((tasks plan "db.t" .empty).2.2 (.unseeded "db.t" .createTable)).mp rfl
  exact ⟨kept, (made task rfl).2, unseeded⟩

end RepeatedUnit

end TableMigration
