import TableMigration.Proofs.Advances

/-!
# Progress across levels

The progress of a whole joins that of its parts, so neither the order of the parts nor the groups they
are put in can change it, and a part that moves forward never takes the whole back. One pass over the
parts that stops at the first failure finds it.
-/

namespace TableMigration

namespace Progress

variable {ps qs : List Progress}

theorem Rises.height_le_height {p q : Progress} (h : p.Rises q) : p.height ≤ q.height := by
  rcases h with rfl | lt
  · exact Nat.le_refl _
  · exact Nat.le_of_lt lt

theorem aggregate_append (left : ps ≠ []) (right : qs ≠ []) :
    aggregate (ps ++ qs) = join (aggregate ps) (aggregate qs) := by
  obtain ⟨p, ps, rfl⟩ := List.exists_cons_of_ne_nil left
  obtain ⟨q, qs, rfl⟩ := List.exists_cons_of_ne_nil right
  simp only [aggregate, List.cons_append, List.foldl_append, List.foldl_cons]
  exact List.foldl_assoc

theorem aggregate_cons (p : Progress) (h : ps ≠ []) : aggregate (p :: ps) = join p (aggregate ps) :=
  aggregate_append (List.cons_ne_nil p []) h

theorem aggregate_perm (h : ps.Perm qs) : aggregate ps = aggregate qs := by
  induction h with
  | nil => rfl
  | @cons p ps qs perm ih =>
    by_cases none : ps = []
    · subst none
      rw [perm.nil_eq]
    · rw [aggregate_cons p none, ih, aggregate_cons p (mt (fun h => (h ▸ perm).eq_nil) none)]
  | swap p q ps => exact congrArg (ps.foldl join) (join_comm q p)
  | trans _ _ first second => exact first.trans second

theorem aggregate_flatten {groups : List (List Progress)} (nonempty : ∀ g ∈ groups, g ≠ []) :
    aggregate (groups.map aggregate) = aggregate groups.flatten := by
  induction groups with
  | nil => rfl
  | cons g groups ih =>
    obtain ⟨filled, others⟩ := List.forall_mem_cons.mp nonempty
    cases groups with
    | nil => simp [aggregate]
    | cons g' groups =>
      have parts : (g' :: groups).flatten ≠ [] := by simp [others g' List.mem_cons_self]
      rw [List.map_cons, aggregate_cons _ (by simp), ih others]
      exact (aggregate_append filled parts).symm

theorem aggregate_rises {p q : Progress} (h : p.Rises q) (pre post : List Progress) :
    (aggregate (pre ++ p :: post)).Rises (aggregate (pre ++ q :: post)) := by
  apply Rises.aggregate
  apply List.rel_append
  · exact List.forall₂_same.mpr fun r _ => .refl r
  · exact .cons h (List.forall₂_same.mpr fun r _ => .refl r)

/-! ## One pass -/

/-- One pass over the parts, which stops at the first that has failed. The flags say whether a part was
seen, and whether all that were seen are new or have succeeded. -/
def scan (seen allNew allSucceeded : Bool) : List Progress → Progress
  | [] => if !seen || allNew then new else if allSucceeded then succeeded else running
  | failed :: _ => failed
  | succeeded :: rest => scan true false allSucceeded rest
  | running :: rest => scan true false false rest
  | new :: rest => scan true allNew false rest

theorem scan_end {passed : List Progress} (going : failed ∉ passed) :
    scan (!passed.isEmpty) (passed.all (· == new)) (passed.all (· == succeeded)) [] = aggregate passed := by
  have fresh : (!!passed.isEmpty || passed.all (· == new)) = true ↔ aggregate passed = new := by
    rw [aggregate_eq_new_iff]
    cases passed with
    | nil => simp
    | cons p passed => simp
  have standing := mt aggregate_eq_failed_iff.mp going
  rw [scan]
  by_cases none : aggregate passed = new
  · rw [if_pos (fresh.mpr none), none]
  · have nonempty : passed ≠ [] := by
      rintro rfl
      exact none rfl
    have ended : passed.all (· == succeeded) = true ↔ aggregate passed = succeeded := by
      simp [aggregate_eq_succeeded_iff, nonempty]
    rw [if_neg (mt fresh.mp none)]
    by_cases all : aggregate passed = succeeded
    · rw [if_pos (ended.mpr all), all]
    · rw [if_neg (mt ended.mp all)]
      cases value : aggregate passed with
      | new => exact absurd value none
      | running => rfl
      | succeeded => exact absurd value all
      | failed => exact absurd value standing

theorem scan_of_passed (passed rest : List Progress) (going : failed ∉ passed) :
    scan (!passed.isEmpty) (passed.all (· == new)) (passed.all (· == succeeded)) rest =
      aggregate (passed ++ rest) := by
  induction rest generalizing passed with
  | nil =>
    rw [List.append_nil]
    exact scan_end going
  | cons p rest ih =>
    have next : p ≠ failed → scan true (passed.all (· == new) && p == new)
        (passed.all (· == succeeded) && p == succeeded) rest = aggregate (passed ++ p :: rest) := by
      intro standing
      have later := ih (passed ++ [p]) (by simp [going, standing.symm])
      have seen : (passed ++ [p]).isEmpty = false := by simp
      rw [seen, List.all_append, List.all_append, List.append_assoc] at later
      simpa using later
    cases p with
    | failed =>
      rw [scan, eq_comm, aggregate_eq_failed_iff]
      exact List.mem_append_right passed List.mem_cons_self
    | succeeded =>
      have later := next (by decide)
      change scan true (_ && false) (_ && true) rest = _ at later
      rwa [Bool.and_false, Bool.and_true] at later
    | running =>
      have later := next (by decide)
      change scan true (_ && false) (_ && false) rest = _ at later
      rwa [Bool.and_false, Bool.and_false] at later
    | new =>
      have later := next (by decide)
      change scan true (_ && true) (_ && false) rest = _ at later
      rwa [Bool.and_false, Bool.and_true] at later

theorem scan_eq_aggregate (ps : List Progress) : scan false true true ps = aggregate ps :=
  scan_of_passed [] ps List.not_mem_nil

end Progress

namespace Task

theorem refresh_progress_of_units {t : Task} (filled : ∀ s ∈ t.stages, s.units ≠ []) :
    t.refresh.progress = Progress.aggregate (t.stages.flatMap fun s => s.units.map (·.progress)) := by
  have live : t.stages.map Stage.liveProgress =
      (t.stages.map fun s => s.units.map (·.progress)).map Progress.aggregate := by
    rw [List.map_map]
    apply List.map_congr_left
    intro s hs
    exact Stage.liveProgress_of_units (filled s hs)
  rw [refresh_progress, liveProgress, live, List.flatMap_def]
  apply Progress.aggregate_flatten
  rw [List.forall_mem_map]
  intro s hs
  simp [filled s hs]

end Task

namespace Progress

/-- The laws of the progress of a whole. It is found in one pass that stops at the first failure; it
depends neither on the order of the parts nor on the groups they are put in, so that a table whose stages
all have units is as far as all its units together; it is failed, succeeded or new as its parts are; and
when one part moves forward it does not go back, nor changes once it is terminal. -/
theorem aggregate_across_levels :
    (∀ ps : List Progress, scan false true true ps = aggregate ps) ∧
    (∀ ps qs : List Progress, ps.Perm qs → aggregate ps = aggregate qs) ∧
    (∀ groups : List (List Progress), (∀ g ∈ groups, g ≠ []) →
      aggregate (groups.map aggregate) = aggregate groups.flatten) ∧
    (∀ t : Task, (∀ s ∈ t.stages, s.units ≠ []) →
      t.refresh.progress = aggregate (t.stages.flatMap fun s => s.units.map (·.progress))) ∧
    (∀ ps : List Progress, (aggregate ps = failed ↔ failed ∈ ps) ∧
      (aggregate ps = succeeded ↔ ps ≠ [] ∧ ∀ p ∈ ps, p = succeeded) ∧
      (aggregate ps = new ↔ ∀ p ∈ ps, p = new)) ∧
    ∀ (pre : List Progress) (p q : Progress) (post : List Progress), p.height < q.height →
      (aggregate (pre ++ p :: post)).height ≤ (aggregate (pre ++ q :: post)).height ∧
      ((aggregate (pre ++ p :: post)).isTerminal = true →
        aggregate (pre ++ q :: post) = aggregate (pre ++ p :: post)) := by
  refine ⟨scan_eq_aggregate, ?_, ?_, ?_, ?_, ?_⟩
  · intro ps qs perm
    exact aggregate_perm perm
  · intro groups nonempty
    exact aggregate_flatten nonempty
  · intro t filled
    exact Task.refresh_progress_of_units filled
  · intro ps
    exact ⟨aggregate_eq_failed_iff, aggregate_eq_succeeded_iff, aggregate_eq_new_iff⟩
  · intro pre p q post forward
    have rises := aggregate_rises (Or.inr forward : p.Rises q) pre post
    exact ⟨rises.height_le_height, rises.eq_of_terminal⟩

theorem aggregate_of_two_stages :
    aggregate [running, succeeded] = aggregate [succeeded, running] ∧
    aggregate ([[new, succeeded], [succeeded]].map aggregate) = aggregate [new, succeeded, succeeded] ∧
    (Task.refresh ⟨"db.t", none, [⟨.createTable, .new, [⟨"a", .succeeded⟩]⟩,
      ⟨.loadData, .new, [⟨"a", .running⟩, ⟨"b", .failed⟩]⟩], .new⟩).progress =
        aggregate [succeeded, running, failed] ∧
    (aggregate [running, new]).height ≤ (aggregate [failed, new]).height ∧
    aggregate [failed, running] = aggregate [failed, new] := by
  obtain ⟨-, order, groups, table, -, forward⟩ := aggregate_across_levels
  refine ⟨order _ _ (.swap ..), groups [[new, succeeded], [succeeded]] (by decide), table _ ?_, ?_, ?_⟩
  · simp
  · exact (forward [] running failed [new] (by decide)).1
  · exact (forward [failed] new running [] (by decide)).2 rfl

end Progress

end TableMigration
