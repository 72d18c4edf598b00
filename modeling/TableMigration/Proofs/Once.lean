import TableMigration.Proofs.Histories
import TableMigration.Proofs.Reports
import TableMigration.Proofs.Turns

/-!
# Asked for once

A unit that was submitted is not new any more, and a table that was judged has begun its comparison.
Neither goes back, so that along a run no unit is submitted twice and no table judged twice.
-/

namespace TableMigration

def Entry.request? : Entry → Option (Task × Request)
  | asked t q => some (t, q)
  | reported .. => none

def requests (es : List Entry) : List (Task × Request) :=
  es.filterMap (·.request?)

theorem requests_append (es es' : List Entry) : requests (es ++ es') = requests es ++ requests es' :=
  List.filterMap_append

theorem requests_asked (qs : List (Task × Request)) :
    requests (qs.map fun q => .asked q.1 q.2) = qs := by
  unfold requests
  rw [List.filterMap_map]
  exact List.filterMap_some

theorem handles_of_requests (es : List Entry) :
    es.filterMap (·.handle?) = (requests es).filterMap (·.2.handle?) := by
  unfold requests
  rw [List.filterMap_filterMap]
  apply List.filterMap_congr
  intro e _
  cases e <;> rfl

theorem nodup_map_of_injective {α β γ : Type} {f : α → β} {g : α → γ} {xs : List α}
    (h : (xs.map f).Nodup) (injective : ∀ x ∈ xs, ∀ y ∈ xs, g x = g y → f x = f y) :
    (xs.map g).Nodup := by
  unfold List.Nodup at h ⊢
  rw [List.pairwise_map] at h ⊢
  apply h.imp_of_mem
  intro x y hx hy ne same
  exact ne (injective x hx y hy same)

/-! ## Units -/

theorem Mark.count_reported (o : Outcome) (counted : Bool) (ms : List Mark) :
    (reported o counted :: ms).count submitted = ms.count submitted := by
  apply List.count_cons_of_ne
  intro same
  cases same

namespace Passage

variable {p q : Option Progress} {ms : List Mark}

theorem begun (h : Passage p ms q) (begun : p ≠ some .new) :
    q ≠ some .new ∧ ms.count .submitted = 0 := by
  induction h with
  | nil p => exact ⟨begun, rfl⟩
  | cons head _ ih =>
    cases head with
    | start => exact absurd rfl begun
    | settle o =>
      have ended : some o.progress ≠ some Progress.new := by
        cases o <;> decide
      rw [Mark.count_reported]
      exact ih ended
    | late o idle =>
      rw [Mark.count_reported]
      exact ih begun

theorem submitted_eq (h : Passage p ms q) :
    ms.count .submitted = if p = some .new ∧ q ≠ some .new then 1 else 0 := by
  induction h with
  | nil p => exact (if_neg fun left => left.2 left.1).symm
  | cons head rest ih =>
    cases head with
    | start =>
      obtain ⟨left, none⟩ := rest.begun (by decide)
      rw [List.count_cons_self, none, if_pos ⟨rfl, left⟩]
    | settle o =>
      have ended : some o.progress ≠ some Progress.new := by
        cases o <;> decide
      rw [Mark.count_reported, (rest.begun ended).2, if_neg]
      rintro ⟨new, -⟩
      cases new
    | late o idle => rw [Mark.count_reported, ih]

end Passage

theorem Request.count_submitted (c : Cell) (t : Task) (q : Request) :
    (q.marks c t).count .submitted = (q.handle?.toList.map Handle.cell).count c := by
  cases q with
  | submit h receipt =>
    change _ = [h.cell].count c
    rw [marks]
    by_cases here : h.cell = c
    · rw [if_pos here, here, List.count_cons_self, List.count_singleton_self]
      cases receipt.outcome? <;> rfl
    · rw [if_neg here, List.count_singleton, if_neg (by simpa using here)]
      rfl
  | validate owner a verdict => rfl

theorem Entry.count_submitted (c : Cell) (e : Entry) :
    (e.marks c).count .submitted = (e.handle?.toList.map Handle.cell).count c := by
  cases e with
  | asked t q => exact q.count_submitted c t
  | reported h o counted =>
    rw [marks]
    by_cases here : h.cell = c
    · rw [if_pos here]
      rfl
    · rw [if_neg here]
      rfl

theorem count_submitted (c : Cell) (es : List Entry) : (es.flatMap (·.marks c)).count .submitted =
    ((es.filterMap (·.handle?)).map Handle.cell).count c := by
  rw [List.filterMap_eq_flatMap_toList, List.map_flatMap, List.count_flatMap, List.count_flatMap]
  exact congrArg List.sum (List.map_congr_left fun e _ => e.count_submitted c)

/-! ## Verdicts -/

/-- How many verdicts were given on the task: one, once its comparison has begun. -/
def Task.verdicts (t : Task) : Nat :=
  if t.BegunIn .compareResults then 1 else 0

theorem Task.Moves.verdicts {w : Conduct} {owner : Nat} {t t' : Task} (wf : t.WellFormed)
    (moves : t.Moves w owner t') : t.verdicts ≤ t'.verdicts := by
  unfold Task.verdicts
  by_cases begun : t.BegunIn .compareResults
  · exact Nat.le_of_eq (by rw [if_pos begun, if_pos (moves.begunIn wf begun)])
  · rw [if_neg begun]
    exact Nat.zero_le _

def isVerdict (q : Task × Request) : Bool :=
  (q.2.judgement? q.1).isSome

def Tallies (_owner : Nat) (t : Task) (qs : List (Task × Request)) (t' : Task) : Prop :=
  t.verdicts + qs.countP isVerdict ≤ t'.verdicts

namespace Round

variable {σ δ ν : Type}

section
variable {a : Action} {t : Task} {r : Round σ δ ν} {s : Stage} (turn : r.Turn a t.refresh s)
  (compare : a.isCompare = true) (empty : s.units = [])
include turn compare empty

theorem Turn.unjudged (wf : t.WellFormed) : t.verdicts = 0 := by
  obtain rfl := turn.action_eq
  have compares : s.action = .compareResults := beq_iff_eq.mp compare
  have new := Stage.not_begun_of_accepts_empty turn.accepts empty
  refine if_neg fun begun => ?_
  obtain ⟨b, hb, same, begun⟩ := begun.refresh
  obtain rfl := (wf.of_shape (Task.shape_refresh t)).eq_of_action hb turn.found (same.trans compares.symm)
  obtain ⟨u, hu, -⟩ | ⟨-, ne⟩ := begun
  · rw [empty] at hu
    cases hu
  · exact ne new

theorem Turn.judged {p : Progress} (given : p ≠ .new) :
    (t.refresh.replace { s with progress := p }).refresh.verdicts = 1 := by
  obtain rfl := turn.action_eq
  have begun : (t.refresh.replace { s with progress := p }).BegunIn .compareResults :=
    ⟨_, Task.mem_replace_self turn.found rfl, beq_iff_eq.mp compare, Or.inr ⟨empty, given⟩⟩
  exact if_pos begun.refresh

end

variable [Dispatcher δ]

theorem submit_no_verdict (owner : Nat) (a : Action) (t : Task) (r : Round σ δ ν) (ids : List String) :
    (submitMoments owner a t r.dispatcher ids).countP isVerdict = 0 := by
  refine List.countP_eq_zero.mpr fun m hm => ?_
  obtain ⟨h, receipt, asked⟩ := submit_asks owner a t r.dispatcher ids m hm
  rw [isVerdict, asked]
  exact Bool.false_ne_true

variable [NameStore σ] [Validator ν]

theorem admitTask_tallies {t : Task} (wf : t.WellFormed) (owner : Nat) (a : Action) (r : Round σ δ ν) :
    Tallies owner t (admitMoments owner a t r) (r.admitTask owner a t).1 := by
  have moves := (admitTask_moves (w := .any) wf owner a r fun _ _ => trivial).1
  have visit := admitTask_visit wf owner a r
  unfold Tallies
  generalize r.admitTask owner a t = out, admitMoments owner a t r = ms at visit moves ⊢
  cases visit with
  | idle passed => exact moves.verdicts wf
  | crash turn asked => exact moves.verdicts wf
  | @judge v passed s turn compare empty asked =>
    have ended : (if passed then Progress.succeeded else .failed) ≠ .new := by
      cases passed <;> decide
    rw [conclude_task, turn.unjudged compare empty wf, turn.judged compare empty ended, Nat.zero_add]
    exact List.countP_le_length
  | skip turn gated empty => exact moves.verdicts wf
  | @halt t' r' f s turn submitted =>
    rw [submit_no_verdict]
    exact moves.verdicts wf
  | @work t' r' s turn _ submitted =>
    rw [submit_no_verdict]
    exact moves.verdicts wf

end Round

theorem tracks_tallies (σ δ ν : Type) [NameStore σ] [Dispatcher δ] [Validator ν] :
    Tracks σ δ ν .any Tallies where
  nil _ _ := Nat.le_refl _
  append {_ _ _ _ qs qs'} h h' := by
    unfold Tallies at *
    rw [List.countP_append]
    omega
  refresh _ t := by
    unfold Tallies Task.verdicts
    by_cases begun : t.BegunIn .compareResults
    · rw [if_pos begun, if_pos begun.refresh]
      exact Nat.le_refl 1
    · rw [if_neg begun]
      exact Nat.zero_le _
  admits owner a _ r wf _ := Round.admitTask_tallies wf owner a r

/-! ## Chronicles -/

namespace Scheduler

variable {σ δ ν : Type}

def verdictsAt (ts : List Task) (i : Nat) : Nat :=
  ts[i]?.elim 0 Task.verdicts

theorem verdictsAt_le (ts : List Task) (i : Nat) : verdictsAt ts i ≤ 1 := by
  unfold verdictsAt
  cases ts[i]? with
  | none => exact Nat.zero_le 1
  | some t =>
    rw [Option.elim_some, Task.verdicts]
    split <;> decide

theorem verdictsAt_evolves {w : Conduct} {ts ts' : List Task} (wf : ∀ t ∈ ts, t.WellFormed)
    (evolves : Evolves w 0 ts ts') (i : Nat) : verdictsAt ts i ≤ verdictsAt ts' i := by
  unfold verdictsAt
  cases at_i : ts[i]? with
  | none => exact Nat.zero_le _
  | some t =>
    obtain ⟨t', at_i', moves⟩ := evolves.moves i t at_i
    rw [at_i']
    exact moves.verdicts (wf t (List.mem_of_getElem? at_i))

namespace Chronicle

variable [NameStore σ] [Dispatcher δ] [Validator ν] {start s : Scheduler σ δ ν} {es : List Entry}
  (run : Chronicle start es s) (wf : ∀ t ∈ start.tasks, t.WellFormed)
include run wf

theorem named : ∀ q ∈ requests es, (start.tasks.map (·.name))[q.2.owner]? = some q.1.name ∧
    ∀ h, q.2.handle? = some h → h.task = q.1.name := by
  induction run with
  | start => exact List.forall_mem_nil _
  | @call es s before c ih =>
    rw [requests_append, requests_asked, List.forall_mem_append]
    refine ⟨ih, fun q hq => ?_⟩
    rw [← (before.reaches.evolves wf).names_eq]
    exact s.asked_named (before.wellFormed wf) c q hq
  | @finish es s before h given o ih =>
    rw [requests_append, List.forall_mem_append]
    exact ⟨ih, List.forall_mem_nil _⟩
  | outside before d v counts ih => exact ih

theorem tallies (i : Nat) :
    verdictsAt start.tasks i + (concerning i (requests es)).countP isVerdict ≤ verdictsAt s.tasks i := by
  induction run with
  | start => exact Nat.le_refl _
  | @call es s before c ih =>
    rw [requests_append, requests_asked, concerning_append, List.countP_append]
    have wf' := before.wellFormed wf
    have step : verdictsAt s.tasks i + (concerning i (asked 0 (s.moments c))).countP isVerdict ≤
        verdictsAt (s.perform c).tasks i := by
      cases at_i : s.tasks[i]? with
      | none =>
        rw [concerning_absent s wf' c at_i]
        exact verdictsAt_evolves wf' (perform_evolves (w := .any) s wf' c fun _ _ => trivial).1 i
      | some t =>
        obtain ⟨t', at_i', more⟩ := perform_tracked (tracks_tallies σ δ ν) s wf' c (fun _ _ => trivial) i t at_i
        rw [Nat.zero_add] at more
        unfold verdictsAt
        rw [at_i, at_i']
        exact more
    omega
  | @finish es s before h given o ih =>
    rw [requests_append, concerning_append, List.countP_append]
    exact Nat.le_trans ih (verdictsAt_evolves (before.wellFormed wf)
      (finish_evolves (w := .any) s (before.wellFormed wf) h o trivial) i)
  | outside before d v counts ih => exact ih

theorem handle_named : ∀ h ∈ es.filterMap (·.handle?),
    (start.tasks.map (·.name))[h.owner]? = some h.task := by
  rw [handles_of_requests]
  intro h hh
  obtain ⟨⟨t, q⟩, hq, he⟩ := List.mem_filterMap.mp hh
  obtain ⟨at_q, name⟩ := run.named wf _ hq
  rw [name h he]
  cases q with
  | submit g receipt =>
    obtain rfl := Option.some.inj he
    exact at_q
  | validate owner a verdict => cases he

theorem count_handed (c : Cell) : ((es.filterMap (·.handle?)).map Handle.cell).count c =
    if start.progressAt? c = some .new ∧ s.progressAt? c ≠ some .new then 1 else 0 := by
  rw [← count_submitted]
  exact (run.passage wf c).submitted_eq

theorem handed_once (none_given : start.handles = []) : (s.handles.map Handle.cell).Nodup := by
  rw [List.nodup_iff_count_le_one]
  intro c
  rw [run.handles_eq wf, none_given, List.nil_append, run.count_handed wf]
  split <;> decide

variable (distinct : (start.tasks.map (·.name)).Nodup)
include distinct

theorem owner_of_name {q q' : Task × Request} (hq : q ∈ requests es) (hq' : q' ∈ requests es)
    (same : q.1.name = q'.1.name) : q.2.owner = q'.2.owner := by
  have at_q := (run.named wf q hq).1
  have at_q' := (run.named wf q' hq').1
  obtain ⟨lt, -⟩ := List.getElem?_eq_some_iff.mp at_q
  refine (List.getElem?_inj lt distinct).mp ?_
  rw [at_q, at_q', same]

theorem judged_once :
    (((requests es).filterMap fun q => q.2.judgement? q.1).map (·.1)).Nodup := by
  have names : ((requests es).filterMap fun q => q.2.judgement? q.1).map (·.1) =
      ((requests es).filter isVerdict).map (·.1.name) := by
    generalize requests es = qs
    induction qs with
    | nil => rfl
    | cons q qs ih =>
      obtain ⟨t, q⟩ := q
      rcases q with ⟨h, receipt⟩ | ⟨owner, a, _ | _ | payload⟩
      · exact ih
      · exact congrArg (t.name :: ·) ih
      · exact congrArg (t.name :: ·) ih
      · exact ih
  have owners : (((requests es).filter isVerdict).map (·.2.owner)).Nodup := by
    rw [List.nodup_iff_count_le_one]
    intro i
    have most := verdictsAt_le s.tasks i
    have tally := run.tallies wf i
    have same : (((requests es).filter isVerdict).map (·.2.owner)).count i =
        (concerning i (requests es)).countP isVerdict := by
      unfold concerning
      rw [List.count, List.countP_map, List.countP_filter, List.countP_filter]
      apply List.countP_congr
      intro q _
      rw [Function.comp_apply, Bool.and_comm]
    omega
  rw [names]
  apply nodup_map_of_injective owners
  intro q hq q' hq' same
  exact run.owner_of_name wf distinct (List.mem_filter.mp hq).1 (List.mem_filter.mp hq').1 same

theorem key_eq_iff {h h' : Handle} (hh : h ∈ es.filterMap (·.handle?))
    (hh' : h' ∈ es.filterMap (·.handle?)) : h.toUnitKey = h'.toUnitKey ↔ h.cell = h'.cell := by
  have at_h := run.handle_named wf h hh
  have at_h' := run.handle_named wf h' hh'
  obtain ⟨lt, -⟩ := List.getElem?_eq_some_iff.mp at_h
  obtain ⟨⟨task, action, unit⟩, owner⟩ := h
  obtain ⟨⟨task', action', unit'⟩, owner'⟩ := h'
  unfold Handle.cell
  rw [UnitKey.mk.injEq, Cell.mk.injEq]
  constructor
  · rintro ⟨rfl, rfl, rfl⟩
    exact ⟨(List.getElem?_inj lt distinct).mp (at_h.trans at_h'.symm), rfl, rfl⟩
  · rintro ⟨rfl, rfl, rfl⟩
    exact ⟨Option.some.inj (at_h.symm.trans at_h'), rfl, rfl⟩

end Chronicle

end Scheduler

end TableMigration
