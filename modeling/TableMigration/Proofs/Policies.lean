import TableMigration.Dispatch.Policy
import TableMigration.Proofs.Reports
import TableMigration.Validation.Fixed

/-!
# Answers by fixed rules

A dispatcher that goes by a policy answers for the task and the action of a unit alone, and logs the
units it takes. A validator with fixed verdicts answers for the name of a table alone.
-/

namespace TableMigration

def Policy.receipt (p : Policy) (h : Handle) : Receipt :=
  if p.refuses.contains h.action then .refused (.refused h.action h.task)
  else
    match p.completion h with
    | .succeed => .finished .succeeded
    | .fail => .finished .failed
    | .hold | .succeedAfter _ => .running

theorem Policy.receipt_of_willing {p : Policy} (willing : p.refuses = []) (h : Handle) :
    p.receipt h = match p.completion h with
      | .succeed => .finished .succeeded
      | .fail => .finished .failed
      | .hold | .succeedAfter _ => .running := by
  unfold receipt
  rw [willing, List.contains_nil, if_neg Bool.false_ne_true]

theorem Policy.runs_of_receipt {p : Policy} {h : Handle} (running : p.receipt h = .running) :
    p.completion h = .hold ∨ ∃ delay, p.completion h = .succeedAfter delay := by
  unfold receipt at running
  by_cases refused : p.refuses.contains h.action = true
  · rw [if_pos refused] at running
    cases running
  · rw [if_neg refused] at running
    cases completion : p.completion h with
    | succeed | fail =>
      rw [completion] at running
      cases running
    | hold => exact Or.inl rfl
    | succeedAfter delay => exact Or.inr ⟨delay, rfl⟩

namespace PolicyDispatcher

structure Serves (d : PolicyDispatcher) (h : Handle) (d' : PolicyDispatcher) (receipt : Receipt) :
    Prop where
  policy : d'.policy = d.policy
  answer : receipt = d.policy.receipt h
  submitted : d'.submitted = d.submitted ++ (Request.submit h receipt).admission?.toList
  held : d'.held = d.held ++ if receipt = .running ∧ d.policy.completion h = .hold then [h] else []
  timed : ∀ v ∈ d'.timed, v ∈ d.timed ∨ v.2 = h
  shutdowns : d'.shutdowns = d.shutdowns

theorem submit_receipt (d : PolicyDispatcher) (h : Handle) : (d.submit h).2 = d.policy.receipt h := by
  unfold PolicyDispatcher.submit Policy.receipt
  by_cases refused : d.policy.refuses.contains h.action = true
  · rw [if_pos refused, if_pos refused]
  · rw [if_neg refused, if_neg refused]
    dsimp only
    cases d.policy.completion h <;> rfl

theorem submit_serves {d d' : PolicyDispatcher} {h : Handle} {receipt : Receipt}
    (served : Dispatcher.submit d h = (d', receipt)) : d.Serves h d' receipt := by
  change d.submit h = (d', receipt) at served
  have answer : receipt = d.policy.receipt h := by rw [← submit_receipt, served]
  unfold PolicyDispatcher.submit at served
  by_cases refused : d.policy.refuses.contains h.action = true
  · rw [if_pos refused] at served
    obtain ⟨rfl, rfl⟩ := Prod.mk.inj served
    exact ⟨rfl, answer, (List.append_nil _).symm, by simp, fun _ => Or.inl, rfl⟩
  · rw [if_neg refused] at served
    dsimp only at served
    cases completion : d.policy.completion h with
    | succeed | fail =>
      rw [completion] at served
      obtain ⟨rfl, rfl⟩ := Prod.mk.inj served
      exact ⟨rfl, answer, rfl, by simp, fun _ => Or.inl, rfl⟩
    | hold =>
      rw [completion] at served
      obtain ⟨rfl, rfl⟩ := Prod.mk.inj served
      exact ⟨rfl, answer, rfl, by simp [completion], fun _ => Or.inl, rfl⟩
    | succeedAfter delay =>
      rw [completion] at served
      obtain ⟨rfl, rfl⟩ := Prod.mk.inj served
      refine ⟨rfl, answer, rfl, by simp [completion], fun v hv => ?_, rfl⟩
      refine (List.mem_append.mp hv).imp_right fun last => ?_
      rw [List.eq_of_mem_singleton last]

theorem submit_shutdowns (d : PolicyDispatcher) (h : Handle) :
    (Dispatcher.submit d h).1.shutdowns = d.shutdowns :=
  (submit_serves rfl).shutdowns

theorem Serves.mem_held {d d' : PolicyDispatcher} {h g : Handle} {receipt : Receipt}
    (serves : d.Serves h d' receipt) (hg : g ∈ d'.held) : g ∈ d.held ∨ g = h := by
  rw [serves.held, List.mem_append] at hg
  refine hg.imp_right fun last => ?_
  by_cases kept : receipt = .running ∧ d.policy.completion h = .hold
  · rw [if_pos kept] at last
    exact List.eq_of_mem_singleton last
  · rw [if_neg kept] at last
    cases last

/-- Dispatchers of one policy answer alike, whatever position the handle names. -/
theorem served_alike {d d₁ d' : PolicyDispatcher} {k : UnitKey} {owner : Nat} {receipt : Receipt}
    (served : Dispatcher.submit d ⟨k, owner⟩ = (d₁, receipt)) (same : d.policy = d'.policy)
    (owner' : Nat) : ∃ d₂, Dispatcher.submit d' ⟨k, owner'⟩ = (d₂, receipt) ∧ d₁.policy = d₂.policy := by
  have serves := submit_serves served
  cases served' : Dispatcher.submit d' ⟨k, owner'⟩ with
  | mk d₂ receipt' =>
    have serves' := submit_serves served'
    have alike : receipt' = receipt := by
      rw [serves.answer, serves'.answer, same]
      rfl
    exact ⟨d₂, Prod.ext rfl alike, serves.policy.trans (same.trans serves'.policy.symm)⟩

end PolicyDispatcher

theorem FixedValidator.verdict_of_calm {v : FixedValidator} (calm : v.crashing = []) (t : Task) :
    v.verdict t = .ofBool (!v.failing.contains t.name) := by
  unfold FixedValidator.verdict
  rw [calm, List.contains_nil, if_neg Bool.false_ne_true]

end TableMigration
