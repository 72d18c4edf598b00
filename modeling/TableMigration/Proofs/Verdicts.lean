import TableMigration.Proofs.Counting

/-!
# Verdicts on recorded counts

A comparison reads, for each validate unit of its table, the last count recorded for either warehouse. So
its verdict is a matter of what was recorded last under these keys, and of nothing else.
-/

namespace TableMigration

namespace RowCounts

variable {records : List (CountKey × Nat)} {key : CountKey}

/-- What is kept after these records, the first of which was made first. -/
def ofRecords (records : List (CountKey × Nat)) : RowCounts :=
  records.foldl (fun counts r => counts.record r.1 r.2) .empty

def latest? (records : List (CountKey × Nat)) (key : CountKey) : Option Nat :=
  ((records.filter (·.1 = key)).map (·.2)).getLast?

theorem get?_foldl (counts : RowCounts) (records : List (CountKey × Nat)) (key : CountKey) :
    (records.foldl (fun counts r => counts.record r.1 r.2) counts).get? key =
      (latest? records key).or (counts.get? key) := by
  induction records generalizing counts with
  | nil => rfl
  | cons r records ih =>
    rw [List.foldl_cons, ih, get?_record]
    unfold latest?
    by_cases same : r.1 = key
    · simp [same, List.getLast?_cons]
    · simp [same, Ne.symm same]

theorem get?_ofRecords (records : List (CountKey × Nat)) (key : CountKey) :
    (ofRecords records).get? key = latest? records key := by
  rw [ofRecords, get?_foldl]
  exact Option.or_none

theorem latest?_congr {records' : List (CountKey × Nat)}
    (same : records'.filter (·.1 = key) = records.filter (·.1 = key)) :
    latest? records' key = latest? records key := by
  rw [latest?, latest?, same]

theorem latest?_drop {r : CountKey × Nat} (other : r.1 ≠ key) (before after : List (CountKey × Nat)) :
    latest? (before ++ r :: after) key = latest? (before ++ after) key := by
  apply latest?_congr
  simp [List.filter_append, other]

theorem latest?_swap {r r' : CountKey × Nat} (apart : r.1 ≠ r'.1) (before after : List (CountKey × Nat)) :
    latest? (before ++ r :: r' :: after) key = latest? (before ++ r' :: r :: after) key := by
  apply latest?_congr
  by_cases here : r.1 = key
  · have other : r'.1 ≠ key := fun there => apart (here.trans there.symm)
    simp [List.filter_append, here, other]
  · simp [List.filter_append, here, List.filter_cons]

end RowCounts

def Task.Validates (t : Task) (id : String) : Prop :=
  ∃ s, (t.stage? .validateSource = some s ∨ t.stage? .validateDest = some s) ∧ id ∈ s.ids

namespace CountComparison

theorem mem_unitIds {t : Task} {id : String} : id ∈ unitIds t ↔ t.Validates id := by
  have read : ∀ a, id ∈ ((t.stage? a).map (·.ids)).getD [] ↔ ∃ s, t.stage? a = some s ∧ id ∈ s.ids := by
    intro a
    cases t.stage? a <;> simp
  unfold unitIds Task.Validates
  simp only [List.flatMap_cons, List.flatMap_nil, List.append_nil, List.mem_append, read]
  constructor
  · rintro (⟨s, stage, mem⟩ | ⟨s, stage, mem⟩)
    · exact ⟨s, .inl stage, mem⟩
    · exact ⟨s, .inr stage, mem⟩
  · rintro ⟨s, stage | stage, mem⟩
    · exact .inl ⟨s, stage, mem⟩
    · exact .inr ⟨s, stage, mem⟩

theorem compares_ofPlan {plan : Plan} : (ofPlan plan).compares = false ↔
    .validateSource ∉ plan.actions ∨ .validateDest ∉ plan.actions := by
  have contains_iff : ∀ a, plan.contains a = true ↔ a ∈ plan.actions := fun _ => List.contains_iff_mem
  rw [← contains_iff, ← contains_iff]
  unfold ofPlan
  rw [Bool.and_eq_false_iff, Bool.not_eq_true, Bool.not_eq_true]

theorem passes_congr {v : CountComparison} {t : Task} {counts counts' : RowCounts}
    (same : ∀ side id, t.Validates id → counts'.get? ⟨t.name, side, id⟩ = counts.get? ⟨t.name, side, id⟩) :
    v.passes counts' t = v.passes counts t := by
  rw [Bool.eq_iff_iff, passes_iff, passes_iff]
  refine or_congr_right (and_congr_right fun _ => forall₂_congr fun id mem => ?_)
  rw [same .source id (mem_unitIds.mp mem), same .destination id (mem_unitIds.mp mem)]

def verdictAfter (plan : Plan) (t : Task) (records : List (CountKey × Nat)) : Verdict :=
  (Validator.validate (ofPlan plan) (.ofRecords records) t).2

theorem verdictAfter_eq_passed_iff {plan : Plan} {t : Task} {records : List (CountKey × Nat)} :
    verdictAfter plan t records = .passed ↔
      (.validateSource ∉ plan.actions ∨ .validateDest ∉ plan.actions) ∨
      (∃ id, t.Validates id) ∧ ∀ id, t.Validates id → ∃ n,
        RowCounts.latest? records ⟨t.name, .source, id⟩ = some n ∧
        RowCounts.latest? records ⟨t.name, .destination, id⟩ = some n := by
  have passed : verdictAfter plan t records = .passed ↔
      (ofPlan plan).passes (.ofRecords records) t = true := by
    show Verdict.ofBool _ = .passed ↔ _
    cases (ofPlan plan).passes (.ofRecords records) t <;> simp [Verdict.ofBool]
  have some_iff : unitIds t ≠ [] ↔ ∃ id, id ∈ unitIds t :=
    ⟨List.exists_mem_of_ne_nil _, fun ⟨_, mem⟩ => List.ne_nil_of_mem mem⟩
  rw [passed, passes_iff, compares_ofPlan, some_iff]
  simp only [RowCounts.get?_ofRecords, mem_unitIds]

theorem verdictAfter_congr {plan : Plan} {t : Task} {records records' : List (CountKey × Nat)}
    (same : ∀ side id, t.Validates id → RowCounts.latest? records' ⟨t.name, side, id⟩ =
      RowCounts.latest? records ⟨t.name, side, id⟩) :
    verdictAfter plan t records' = verdictAfter plan t records := by
  show Verdict.ofBool _ = Verdict.ofBool _
  rw [passes_congr fun side id mem => ?_]
  rw [RowCounts.get?_ofRecords, RowCounts.get?_ofRecords, same side id mem]

/-- A table passes just if its plan takes no counts at both ends, or units are validated and for each of
them the last counts of the two warehouses are there and are the same. No record for another table or unit
makes a difference, nor does the order of records under different keys. -/
theorem passed_iff_latest_agree (plan : Plan) (t : Task) (records : List (CountKey × Nat)) :
    (verdictAfter plan t records = .passed ↔
      (.validateSource ∉ plan.actions ∨ .validateDest ∉ plan.actions) ∨
      (∃ id, t.Validates id) ∧ ∀ id, t.Validates id → ∃ n,
        RowCounts.latest? records ⟨t.name, .source, id⟩ = some n ∧
        RowCounts.latest? records ⟨t.name, .destination, id⟩ = some n) ∧
    (verdictAfter plan t records ≠ .passed → verdictAfter plan t records = .rejected) ∧
    (∀ before r after, records = before ++ r :: after → r.1.task ≠ t.name ∨ ¬t.Validates r.1.unit →
      verdictAfter plan t (before ++ after) = verdictAfter plan t records) ∧
    ∀ before r r' after, records = before ++ r :: r' :: after → r.1 ≠ r'.1 →
      verdictAfter plan t (before ++ r' :: r :: after) = verdictAfter plan t records := by
  refine ⟨verdictAfter_eq_passed_iff, ?_, ?_, ?_⟩
  · show Verdict.ofBool _ ≠ .passed → Verdict.ofBool _ = .rejected
    cases (ofPlan plan).passes (.ofRecords records) t <;> simp [Verdict.ofBool]
  · rintro before r after rfl foreign
    apply verdictAfter_congr
    intro side id validated
    have other : r.1 ≠ ⟨t.name, side, id⟩ := by
      intro same
      rw [same] at foreign
      rcases foreign with task | unit
      · exact task rfl
      · exact unit validated
    exact (RowCounts.latest?_drop other before after).symm
  · rintro before r r' after rfl apart
    apply verdictAfter_congr
    intro side id _
    exact RowCounts.latest?_swap apart.symm before after

end CountComparison

namespace CountedAgain

def table : Task where
  name := "db.t"
  destination := none
  stages := [⟨.validateSource, .new, [⟨"a", .new⟩]⟩, ⟨.validateDest, .new, [⟨"a", .new⟩]⟩]
  progress := .new

def source (task : String) : CountKey := ⟨task, .source, "a"⟩

def destination : CountKey := ⟨"db.t", .destination, "a"⟩

open CountComparison in
theorem only_latest_count :
    verdictAfter (.standard .hive) table [(source "db.t", 8), (destination, 7)] = .rejected ∧
    verdictAfter (.standard .hive) table
      [(source "db.t", 8), (source "db.t", 7), (source "db.u", 8), (destination, 7)] = .passed ∧
    verdictAfter (.standard .hive) table [(source "db.t", 8), (source "db.t", 7), (destination, 7)] = .passed ∧
    verdictAfter (.standard .hive) table
      [(source "db.t", 8), (source "db.t", 7), (destination, 7), (source "db.u", 8)] = .passed := by
  have passed : verdictAfter (.standard .hive) table
      [(source "db.t", 8), (source "db.t", 7), (source "db.u", 8), (destination, 7)] = .passed := by decide
  obtain ⟨-, -, foreign, order⟩ := passed_iff_latest_agree (.standard .hive) table
    [(source "db.t", 8), (source "db.t", 7), (source "db.u", 8), (destination, 7)]
  refine ⟨?_, passed, ?_, ?_⟩
  · exact (passed_iff_latest_agree (.standard .hive) table [(source "db.t", 8), (destination, 7)]).2.1 (by decide)
  · exact (foreign [_, _] _ [_] rfl (.inl (by decide))).trans passed
  · exact (order [_, _] _ _ [] rfl (by decide)).trans passed

end CountedAgain

end TableMigration
