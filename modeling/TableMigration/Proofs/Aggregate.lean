import TableMigration.Progress

/-!
# Progress of a whole

When the progress of a whole is failed, succeeded or new, said of its parts.
-/

namespace TableMigration

@[simp] theorem Outcome.progress_ne_running (o : Outcome) : o.progress ≠ .running := by
  cases o <;> decide

namespace Progress

theorem isTerminal_iff {p : Progress} : p.isTerminal = true ↔ p = succeeded ∨ p = failed := by
  cases p <;> decide

theorem join_eq_failed_iff {p q : Progress} : join p q = failed ↔ p = failed ∨ q = failed := by
  cases p <;> cases q <;> decide

theorem join_eq_iff {p q r : Progress} (hf : r ≠ failed) (hr : r ≠ running) :
    join p q = r ↔ p = r ∧ q = r := by
  cases p <;> cases q <;> cases r <;> simp_all [join]

theorem foldl_join_eq_failed_iff : ∀ {ps : List Progress} {p : Progress},
    ps.foldl join p = failed ↔ p = failed ∨ failed ∈ ps
  | [], p => by simp
  | q :: ps, p => by
    rw [List.foldl_cons, foldl_join_eq_failed_iff, join_eq_failed_iff, List.mem_cons, or_assoc,
      eq_comm (a := q)]

theorem foldl_join_eq_iff {r : Progress} (hf : r ≠ failed) (hr : r ≠ running) :
    ∀ {ps : List Progress} {p : Progress}, ps.foldl join p = r ↔ p = r ∧ ∀ q ∈ ps, q = r
  | [], p => by simp
  | q :: ps, p => by
    rw [List.foldl_cons, foldl_join_eq_iff hf hr, join_eq_iff hf hr, List.forall_mem_cons, and_assoc]

theorem aggregate_eq_failed_iff {ps : List Progress} : aggregate ps = failed ↔ failed ∈ ps := by
  cases ps with
  | nil => simp [aggregate]
  | cons p ps => rw [aggregate, foldl_join_eq_failed_iff, List.mem_cons, eq_comm (a := p)]

theorem aggregate_eq_succeeded_iff {ps : List Progress} :
    aggregate ps = succeeded ↔ ps ≠ [] ∧ ∀ p ∈ ps, p = succeeded := by
  cases ps with
  | nil => simp [aggregate]
  | cons p ps =>
    rw [aggregate, foldl_join_eq_iff (by decide) (by decide), List.forall_mem_cons]
    simp

theorem aggregate_eq_new_iff {ps : List Progress} : aggregate ps = new ↔ ∀ p ∈ ps, p = new := by
  cases ps with
  | nil => simp [aggregate]
  | cons p ps => rw [aggregate, foldl_join_eq_iff (by decide) (by decide), List.forall_mem_cons]

end Progress

end TableMigration
