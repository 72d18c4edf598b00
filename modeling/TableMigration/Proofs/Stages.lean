import Mathlib.Data.List.Nodup
import TableMigration.Proofs.Aggregate
import TableMigration.Stage

/-!
# Stages: what is done and what has begun

A stage is done when all its units have succeeded, and it has begun when one of them is no longer
new; for a stage without units the stored progress decides. Both are read off the live units, so
refreshing changes neither. The rest says what setting one unit does, given that ids are unique.
-/

namespace TableMigration

namespace Ordered

section
variable {κ : Type} [LE κ] [LT κ] [DecidableLT κ] [DecidableEq κ] [Std.IsLinearOrder κ]
  [Std.LawfulOrderLT κ]

theorem pairwise_insertKey {k : κ} : ∀ {xs : List κ}, xs.Pairwise (· < ·) →
    (insertKey k xs).Pairwise (· < ·)
  | [], _ => List.pairwise_singleton _ _
  | x :: xs, h => by
    obtain ⟨hx, hxs⟩ := List.pairwise_cons.mp h
    unfold insertKey
    by_cases hk : k < x
    · rw [if_pos hk]
      refine List.pairwise_cons.mpr ⟨fun y hy => ?_, h⟩
      rcases List.mem_cons.mp hy with rfl | hy
      · exact hk
      · exact Std.lt_trans hk (hx y hy)
    · rw [if_neg hk]
      by_cases he : k = x
      · rw [if_pos he]; exact h
      · rw [if_neg he]
        have hlt : x < k := (Std.lt_trichotomy x k).resolve_right fun hr => hr.elim (he ·.symm) hk
        refine List.pairwise_cons.mpr ⟨fun y hy => ?_, pairwise_insertKey hxs⟩
        rcases mem_insertKey.mp hy with rfl | hy
        · exact hlt
        · exact hx y hy

theorem pairwise_ofKeys (ks : List κ) : (ofKeys ks).Pairwise (· < ·) := by
  induction ks with
  | nil => exact List.Pairwise.nil
  | cons k ks ih => exact pairwise_insertKey ih

end

end Ordered

namespace Stage

/-- Every unit has succeeded; without units, the stage itself has. -/
def Done (s : Stage) : Prop :=
  (∀ u ∈ s.units, u.progress = .succeeded) ∧ (s.units = [] → s.progress = .succeeded)

/-- A unit is no longer new; without units, the stage itself is not. -/
def Begun (s : Stage) : Prop :=
  (∃ u ∈ s.units, u.progress ≠ .new) ∨ (s.units = [] ∧ s.progress ≠ .new)

structure WellFormed (s : Stage) : Prop where
  ids : s.ids.Pairwise (· < ·)
  compare : s.action.isCompare = true → s.units = []

theorem WellFormed.nodup {s : Stage} (wf : s.WellFormed) : s.ids.Nodup :=
  wf.ids.imp fun h he => String.ne_of_lt h he

theorem hasUnits_iff {s : Stage} : s.hasUnits = true ↔ s.units ≠ [] := by
  simp [hasUnits]

theorem liveProgress_of_units {s : Stage} (h : s.units ≠ []) :
    s.liveProgress = Progress.aggregate (s.units.map (·.progress)) := by
  rw [liveProgress, if_pos (hasUnits_iff.mpr h)]

theorem liveProgress_of_empty {s : Stage} (h : s.units = []) : s.liveProgress = s.progress := by
  simp [liveProgress, hasUnits, h]

theorem liveProgress_eq_succeeded_iff {s : Stage} : s.liveProgress = .succeeded ↔ s.Done := by
  by_cases h : s.units = []
  · simp [Done, liveProgress_of_empty h, h]
  · rw [liveProgress_of_units h, Progress.aggregate_eq_succeeded_iff]
    simp [Done, h]

theorem liveProgress_eq_failed_iff {s : Stage} : s.liveProgress = .failed ↔
    (∃ u ∈ s.units, u.progress = .failed) ∨ (s.units = [] ∧ s.progress = .failed) := by
  by_cases h : s.units = []
  · simp [liveProgress_of_empty h, h]
  · rw [liveProgress_of_units h, Progress.aggregate_eq_failed_iff]
    simp [h]

theorem liveProgress_eq_new_iff {s : Stage} : s.liveProgress = .new ↔ ¬s.Begun := by
  by_cases h : s.units = []
  · simp [Begun, liveProgress_of_empty h, h]
  · rw [liveProgress_of_units h, Progress.aggregate_eq_new_iff]
    simp [Begun, h]

theorem Done.unit_eq {s : Stage} (h : s.Done) {id : String} {p : Progress}
    (hp : s.unitProgress? id = some p) : p = .succeeded := by
  obtain ⟨u, hu, rfl⟩ := Option.map_eq_some_iff.mp hp
  exact h.1 u (List.mem_of_find?_eq_some hu)

/-! ## Refreshing -/

@[simp] theorem refresh_action (s : Stage) : s.refresh.action = s.action := rfl
@[simp] theorem refresh_units (s : Stage) : s.refresh.units = s.units := rfl
@[simp] theorem refresh_progress (s : Stage) : s.refresh.progress = s.liveProgress := rfl

theorem refresh_of_empty {s : Stage} (h : s.units = []) : s.refresh = s := by
  rw [refresh, liveProgress_of_empty h]

@[simp] theorem refresh_liveProgress (s : Stage) : s.refresh.liveProgress = s.liveProgress := by
  by_cases h : s.units = []
  · rw [liveProgress_of_empty (s := s.refresh) h, refresh_progress]
  · rw [liveProgress_of_units (s := s.refresh) h, liveProgress_of_units h, refresh_units]

@[simp] theorem done_refresh {s : Stage} : s.refresh.Done ↔ s.Done := by
  rw [← liveProgress_eq_succeeded_iff, refresh_liveProgress, liveProgress_eq_succeeded_iff]

@[simp] theorem begun_refresh {s : Stage} : s.refresh.Begun ↔ s.Begun := by
  by_cases h : s.units = []
  · rw [refresh_of_empty h]
  · simp [Begun, h]

theorem not_begun_of_accepts_empty {s : Stage} (h : s.acceptsWork = true) (he : s.units = []) :
    s.progress = .new := by
  simpa [acceptsWork, hasUnits, he] using (Bool.and_eq_true_iff.mp h).2

/-! ## Setting one unit -/

@[simp] theorem setUnit_action (s : Stage) (id : String) (p : Progress) :
    (s.setUnit id p).action = s.action := rfl

@[simp] theorem setUnit_ids (s : Stage) (id : String) (p : Progress) :
    (s.setUnit id p).ids = s.ids := by
  simp only [ids, setUnit, List.map_map]
  refine List.map_congr_left fun u _ => ?_
  by_cases h : u.id = id <;> simp [h]

theorem ids_eq_nil_iff {s : Stage} : s.ids = [] ↔ s.units = [] := by
  simp [ids]

theorem setUnit_split {s : Stage} (nodup : s.ids.Nodup) {id : String} {p : Progress}
    (h : s.unitProgress? id = some p) : ∃ us vs, s.units = us ++ ⟨id, p⟩ :: vs ∧
      ∀ q, (s.setUnit id q).units = us ++ ⟨id, q⟩ :: vs := by
  obtain ⟨u, hu, rfl⟩ := Option.map_eq_some_iff.mp h
  have hid : u.id = id := by simpa using List.find?_some hu
  obtain ⟨us, vs, hs⟩ := List.append_of_mem (List.mem_of_find?_eq_some hu)
  refine ⟨us, vs, by rw [hs, ← hid], fun q => ?_⟩
  rw [ids, hs, List.map_append, List.map_cons, List.nodup_append] at nodup
  obtain ⟨-, hv, hd⟩ := nodup
  have hus : ∀ w ∈ us, w.id ≠ id := fun w hw =>
    hid ▸ hd _ (List.mem_map_of_mem hw) _ (List.mem_cons_self ..)
  have hvs : ∀ w ∈ vs, w.id ≠ id := fun w hw he =>
    (List.nodup_cons.mp hv).1 (hid ▸ he ▸ List.mem_map_of_mem hw)
  have keep : ∀ ws : List WorkUnit, (∀ w ∈ ws, w.id ≠ id) →
      ws.map (fun w => if w.id = id then { w with progress := q } else w) = ws := fun ws hws => by
    refine (List.map_congr_left fun w hw => ?_).trans (List.map_id ws)
    rw [if_neg (hws w hw), id_eq]
  rw [setUnit, hs, List.map_append, List.map_cons, keep us hus, keep vs hvs, if_pos hid, ← hid]

theorem unitProgress?_setUnit {s : Stage} {id : String} {p : Progress}
    (h : s.unitProgress? id = some p) (q : Progress) : (s.setUnit id q).unitProgress? id = some q := by
  obtain ⟨u, hu, -⟩ := Option.map_eq_some_iff.mp h
  have hid : u.id = id := by simpa using List.find?_some hu
  have same : ((fun w : WorkUnit => w.id == id) ∘
      fun w => if w.id = id then { w with progress := q } else w) = fun w => w.id == id := by
    funext w
    by_cases hw : w.id = id <;> simp [hw]
  rw [unitProgress?, setUnit, List.find?_map, same, hu]
  simp [hid]

theorem unitProgress?_of_mem {s : Stage} (nodup : s.ids.Nodup) {u : WorkUnit} (hu : u ∈ s.units) :
    s.unitProgress? u.id = some u.progress := by
  rw [unitProgress?]
  cases hf : s.units.find? (·.id == u.id) with
  | none => simpa using List.find?_eq_none.mp hf u hu
  | some v =>
    have same : v = u := List.inj_on_of_nodup_map nodup (List.mem_of_find?_eq_some hf) hu
      (by simpa using List.find?_some hf)
    rw [same, Option.map_some]

theorem mem_units_setUnit {s : Stage} {id : String} {p : Progress} {u : WorkUnit}
    (h : u ∈ (s.setUnit id p).units) : u = ⟨id, p⟩ ∨ (u ∈ s.units ∧ u.id ≠ id) := by
  obtain ⟨v, hv, rfl⟩ := List.mem_map.mp h
  by_cases he : v.id = id
  · rw [if_pos he, ← he]
    exact Or.inl rfl
  · rw [if_neg he]
    exact Or.inr ⟨hv, he⟩

theorem runningCount_setUnit {s : Stage} (nodup : s.ids.Nodup) {id : String} {p : Progress}
    (h : s.unitProgress? id = some p) (q : Progress) :
    (s.setUnit id q).runningCount + (if p = .running then 1 else 0) =
      s.runningCount + (if q = .running then 1 else 0) := by
  obtain ⟨us, vs, hs, hq⟩ := setUnit_split nodup h
  simp only [runningCount, hs, hq, List.countP_append, List.countP_cons, beq_iff_eq]
  omega

end Stage

end TableMigration
