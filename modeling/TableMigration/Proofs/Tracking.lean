import TableMigration.Proofs.Runs

/-!
# One task through a call

The moments of a call are of all tasks in turn. What a call does to one task depends on what is asked
for this task alone: whatever holds of one admission, and of two one after the other if it holds of
each, holds of a whole call, with the requests that concern the task picked out.
-/

namespace TableMigration

/-- The requests of moments whose first task is at position `k`, each with the task it is made for. -/
def asked (k : Nat) (ms : List Moment) : List (Task × Request) :=
  ms.filterMap fun m => m.tasks[m.request.owner - k]?.map fun t => (t, m.request)

def concerning (owner : Nat) (qs : List (Task × Request)) : List (Task × Request) :=
  qs.filter fun q => q.2.owner == owner

theorem asked_append (k : Nat) (ms ns : List Moment) :
    asked k (ms ++ ns) = asked k ms ++ asked k ns :=
  List.filterMap_append

theorem concerning_append (owner : Nat) (qs qs' : List (Task × Request)) :
    concerning owner (qs ++ qs') = concerning owner qs ++ concerning owner qs' :=
  List.filter_append ..

theorem concerning_eq_self {owner : Nat} {qs : List (Task × Request)}
    (h : ∀ q ∈ qs, q.2.owner = owner) : concerning owner qs = qs :=
  List.filter_eq_self.mpr fun q hq => beq_iff_eq.mpr (h q hq)

theorem concerning_eq_nil {owner : Nat} {qs : List (Task × Request)}
    (h : ∀ q ∈ qs, q.2.owner ≠ owner) : concerning owner qs = [] :=
  List.filter_eq_nil_iff.mpr fun q hq he => h q hq (beq_iff_eq.mp he)

theorem request_of_mem_asked {k : Nat} {ms : List Moment} {q : Task × Request} (h : q ∈ asked k ms) :
    ∃ m ∈ ms, m.request = q.2 ∧ m.tasks[m.request.owner - k]? = some q.1 := by
  obtain ⟨m, hm, he⟩ := List.mem_filterMap.mp h
  obtain ⟨t, at_t, rfl⟩ := Option.map_eq_some_iff.mp he
  exact ⟨m, hm, rfl, at_t⟩

theorem owner_le_of_mem_asked {k n : Nat} {ms : List Moment} (h : ∀ m ∈ ms, n ≤ m.request.owner) :
    ∀ q ∈ asked k ms, n ≤ q.2.owner := by
  intro q hq
  obtain ⟨m, hm, same, -⟩ := request_of_mem_asked hq
  exact same ▸ h m hm

theorem asked_head {k : Nat} {qs : List (Task × Request)} (h : ∀ q ∈ qs, q.2.owner = k)
    (ts : List Task) : asked k (qs.map fun q => ⟨q.1 :: ts, q.2⟩) = qs := by
  rw [asked, List.filterMap_map]
  refine (List.filterMap_congr fun q hq => ?_).trans List.filterMap_some
  rw [Function.comp_apply, h q hq, Nat.sub_self]
  rfl

theorem asked_tail {k : Nat} {ms : List Moment} (h : ∀ m ∈ ms, k + 1 ≤ m.request.owner) (t : Task) :
    asked k (ms.map fun m => ⟨t :: m.tasks, m.request⟩) = asked (k + 1) ms := by
  rw [asked, List.filterMap_map]
  refine List.filterMap_congr fun m hm => ?_
  have beyond : m.request.owner - k = m.request.owner - (k + 1) + 1 := by
    have := h m hm
    omega
  rw [Function.comp_apply, beyond, List.getElem?_cons_succ]

theorem asked_requests {ms : List Moment} (proper : ∀ m ∈ ms, m.Proper) :
    (asked 0 ms).map (·.2) = ms.map (·.request) := by
  rw [asked, List.map_filterMap, ← List.filterMap_eq_map]
  refine List.filterMap_congr fun m hm => ?_
  obtain ⟨t, at_t, -⟩ := proper m hm
  rw [Nat.sub_zero, at_t]
  rfl

namespace Round

variable {σ δ ν : Type} [NameStore σ] [Dispatcher δ] [Validator ν] (a : Action) (owner : Nat)
  (r : Round σ δ ν)

theorem owner_of_mem_admitMoments {t : Task} (wf : t.WellFormed) :
    ∀ q ∈ admitMoments owner a t r, q.2.owner = owner :=
  fun q hq => ((admitTask_moves (w := .any) wf owner a r fun _ _ => trivial).2 q hq).2.owner_eq

theorem asked_cons {t : Task} {ts : List Task} (wf : t.WellFormed) {ms : List Moment}
    (beyond : ∀ m ∈ ms, owner + 1 ≤ m.request.owner) {t' : Task} :
    asked owner ((admitMoments owner a t r).map (fun m => ⟨m.1 :: ts, m.2⟩) ++
      ms.map fun m => ⟨t' :: m.tasks, m.request⟩) = admitMoments owner a t r ++ asked (owner + 1) ms := by
  rw [asked_append, asked_head (owner_of_mem_admitMoments a owner r wf), asked_tail beyond]

end Round

/-! ## Facts about one task that extend to calls -/

/-- What holds of a task through one admission, given what is asked for it, and can be put together. -/
structure Tracks (σ δ ν : Type) [NameStore σ] [Dispatcher δ] [Validator ν] (w : Conduct)
    (R : Nat → Task → List (Task × Request) → Task → Prop) : Prop where
  nil : ∀ owner t, R owner t [] t
  append : ∀ {owner t t' t'' qs qs'}, R owner t qs t' → R owner t' qs' t'' → R owner t (qs ++ qs') t''
  refresh : ∀ owner t, R owner t [] t.refresh
  admits : ∀ owner a {t : Task} (r : Round σ δ ν), t.WellFormed →
    (∀ m ∈ Round.admitMoments owner a t r, w.answers m.2) →
    R owner t (Round.admitMoments owner a t r) (r.admitTask owner a t).1

def Tracked (R : Nat → Task → List (Task × Request) → Task → Prop) (k : Nat) (ts : List Task)
    (qs : List (Task × Request)) (ts' : List Task) : Prop :=
  ∀ (i : Nat) (t : Task), ts[i]? = some t →
    ∃ t', ts'[i]? = some t' ∧ R (k + i) t (concerning (k + i) qs) t'

theorem Tracked.cons {R : Nat → Task → List (Task × Request) → Task → Prop} {k : Nat}
    {t t' : Task} {ts ts' : List Task} {qs qs' : List (Task × Request)} (head : R k t qs t')
    (here : ∀ q ∈ qs, q.2.owner = k) (rest : Tracked R (k + 1) ts qs' ts')
    (beyond : ∀ q ∈ qs', k + 1 ≤ q.2.owner) : Tracked R k (t :: ts) (qs ++ qs') (t' :: ts') := by
  intro i u at_i
  rw [concerning_append]
  cases i with
  | zero =>
    obtain rfl := Option.some.inj at_i
    refine ⟨t', rfl, ?_⟩
    rw [Nat.add_zero, concerning_eq_self here, concerning_eq_nil fun q hq => ?_, List.append_nil]
    · exact head
    · have := beyond q hq
      omega
  | succ i =>
    obtain ⟨u', at_i', later⟩ := rest i u at_i
    refine ⟨u', at_i', ?_⟩
    have skipped : concerning (k + (i + 1)) qs = [] := concerning_eq_nil fun q hq => by
      have := here q hq
      omega
    rw [skipped, List.nil_append, Nat.add_comm i 1, ← Nat.add_assoc]
    exact later

section
variable {σ δ ν : Type} [NameStore σ] [Dispatcher δ] [Validator ν] {w : Conduct}
  {R : Nat → Task → List (Task × Request) → Task → Prop} (tracks : Tracks σ δ ν w R)
include tracks

theorem Tracked.nil (k : Nat) (ts : List Task) : Tracked R k ts [] ts :=
  fun i t at_i => ⟨t, at_i, tracks.nil (k + i) t⟩

theorem Tracked.append {k : Nat} {ts ts' ts'' : List Task} {qs qs' : List (Task × Request)}
    (h : Tracked R k ts qs ts') (h' : Tracked R k ts' qs' ts'') : Tracked R k ts (qs ++ qs') ts'' := by
  intro i t at_i
  obtain ⟨t', at_i', first⟩ := h i t at_i
  obtain ⟨t'', at_i'', later⟩ := h' i t' at_i'
  refine ⟨t'', at_i'', ?_⟩
  rw [concerning_append]
  exact tracks.append first later

theorem Round.run_tracked (a : Action) (owner : Nat) (r : Round σ δ ν) (ts : List Task)
    (wf : ∀ t ∈ ts, t.WellFormed) (conduct : ∀ m ∈ r.moments a owner ts, w.answers m.request) :
    Tracked R owner ts (asked owner (r.moments a owner ts)) (r.run a owner ts).1 := by
  refine run_relates (R := fun owner _ ts ms ts' _ => (∀ m ∈ ms, w.answers m.request) →
    Tracked R owner ts (asked owner ms) ts') ?_ ?_ owner r wf conduct
  · exact fun owner _ ts _ => .nil tracks owner ts
  · intro owner r t ts ms ts' r' hwf beyond rest conduct
    rw [List.forall_mem_append, List.forall_mem_map, List.forall_mem_map] at conduct
    rw [asked_cons a owner r hwf beyond]
    exact .cons (tracks.admits owner a r hwf conduct.1) (owner_of_mem_admitMoments a owner r hwf)
      (rest conduct.2) (owner_le_of_mem_asked beyond)

namespace Scheduler

variable (s : Scheduler σ δ ν) (wf : ∀ t ∈ s.tasks, t.WellFormed)
include wf

theorem schedule_tracked (a : Action) (report : Report)
    (conduct : ∀ m ∈ s.scheduleMoments a report, w.answers m.request) :
    Tracked R 0 s.tasks (asked 0 (s.scheduleMoments a report)) (s.schedule a report).1.tasks := by
  rcases s.schedule_cases a report with ⟨window, he, hm⟩ | ⟨reason, he, hm⟩
  · rw [hm] at conduct ⊢
    rw [he]
    exact Round.run_tracked tracks a 0 _ s.tasks wf conduct
  · rw [he, hm]
    exact .nil tracks 0 s.tasks

theorem perform_tracked (c : Call) (conduct : ∀ m ∈ s.moments c, w.answers m.request) :
    Tracked R 0 s.tasks (asked 0 (s.moments c)) (s.perform c).tasks := by
  refine perform_relates (R := fun s ms s' => (∀ m ∈ ms, w.answers m.request) →
    Tracked R 0 s.tasks (asked 0 ms) s'.tasks) (fun s _ => .nil tracks 0 s.tasks) ?_ ?_ ?_ wf c conduct
  · intro s s' s'' ms ms' first next conduct
    obtain ⟨here, there⟩ := List.forall_mem_append.mp conduct
    rw [asked_append]
    exact (first here).append tracks (next there)
  · exact fun s a report wf conduct => schedule_tracked tracks s wf a report conduct
  · intro s report _ _ i t at_i
    rw [observe_tasks, List.getElem?_map, at_i]
    exact ⟨t.refresh, rfl, tracks.refresh (0 + i) t⟩

end Scheduler

end

theorem Scheduler.concerning_absent {σ δ ν : Type} [NameStore σ] [Dispatcher δ] [Validator ν]
    (s : Scheduler σ δ ν) (wf : ∀ t ∈ s.tasks, t.WellFormed) (c : Call) {i : Nat}
    (absent : s.tasks[i]? = none) : concerning i (asked 0 (s.moments c)) = [] := by
  apply concerning_eq_nil
  intro q hq he
  obtain ⟨m, hm, same, at_m⟩ := request_of_mem_asked hq
  rw [same, he, Nat.sub_zero] at at_m
  have evolves := ((perform_evolves (w := .any) s wf c fun _ _ => trivial).2 m hm).1
  obtain ⟨t, at_t, -⟩ := evolves.origin at_m
  rw [absent] at at_t
  cases at_t

theorem Scheduler.asked_named {σ δ ν : Type} [NameStore σ] [Dispatcher δ] [Validator ν]
    (s : Scheduler σ δ ν) (wf : ∀ t ∈ s.tasks, t.WellFormed) (c : Call) :
    ∀ q ∈ asked 0 (s.moments c), (s.tasks.map (·.name))[q.2.owner]? = some q.1.name ∧
      ∀ h, q.2.handle? = some h → h.task = q.1.name := by
  intro q hq
  obtain ⟨m, hm, same, at_m⟩ := request_of_mem_asked hq
  obtain ⟨moved, t, at_t, proper⟩ := (perform_evolves (w := .any) s wf c fun _ _ => trivial).2 m hm
  rw [Nat.sub_zero] at at_m
  obtain rfl := Option.some.inj (at_m.symm.trans at_t)
  rw [← same]
  refine ⟨?_, proper.handle⟩
  rw [← moved.names_eq, List.getElem?_map, at_t, Option.map_some]

end TableMigration
