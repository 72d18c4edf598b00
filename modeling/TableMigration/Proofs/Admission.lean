import Mathlib.Algebra.BigOperators.Group.List.Basic
import Mathlib.Algebra.Ring.Nat
import TableMigration.Proofs.Faults
import TableMigration.Proofs.Policies
import TableMigration.Proofs.Turns

/-!
# One round of admission in closed form

Under a policy that refuses nothing a round goes by what the tasks are when it starts: readiness and
waiting units of a task do not depend on the tasks before it. So the tasks it admits are a prefix of those
that are ready, and where the prefix ends is told by the units that wait in them. An admitted task has all
these units handed out, in ascending order of their ids, or has the verdict on its stage stored if there
are none. No other unit and no other verdict changes.
-/

namespace TableMigration

/-- What becomes of a unit by the time its submission is over. -/
def Policy.landing (p : Policy) (h : Handle) : Progress :=
  match p.completion h with
  | .succeed => .succeeded
  | .fail => .failed
  | .hold | .succeedAfter _ => .running

theorem Policy.landing_cases {p : Policy} (willing : p.refuses = []) (h : Handle) :
    p.receipt h = .running ∧ p.landing h = .running ∨
      ∃ o, p.receipt h = .finished o ∧ p.landing h = o.progress := by
  rw [receipt_of_willing willing, landing]
  cases p.completion h with
  | succeed => exact Or.inr ⟨.succeeded, rfl, rfl⟩
  | fail => exact Or.inr ⟨.failed, rfl, rfl⟩
  | hold => exact Or.inl ⟨rfl, rfl⟩
  | succeedAfter delay => exact Or.inl ⟨rfl, rfl⟩

/-! ## Stages by their cells -/

namespace Stage

/-- What decides the progress of a stage: its units, and its verdict if it has none. -/
def cells (s : Stage) : Action × List WorkUnit × Option Progress :=
  (s.action, s.units, if s.units = [] then some s.progress else none)

def admitted (land : String → Progress) (verdict : Progress) (s : Stage) : Stage :=
  if s.units = [] then { s with progress := verdict }
  else { s with units := s.units.map fun u =>
    if u.progress = .new then { u with progress := land u.id } else u }

def land (f : String → Progress) (ids : List String) (s : Stage) : Stage :=
  { s with units := s.units.map fun u => if u.id ∈ ids then { u with progress := f u.id } else u }

@[simp] theorem land_action (f : String → Progress) (ids : List String) (s : Stage) :
    (s.land f ids).action = s.action := rfl

@[simp] theorem admitted_action (land : String → Progress) (verdict : Progress) (s : Stage) :
    (s.admitted land verdict).action = s.action := by
  unfold admitted
  split <;> rfl

@[simp] theorem land_nil (f : String → Progress) (s : Stage) : s.land f [] = s := by
  simp [land]

theorem land_cons {f : String → Progress} {id : String} {ids : List String} (once : id ∉ ids) (s : Stage) :
    (s.setUnit id (f id)).land f ids = s.land f (id :: ids) := by
  simp only [land, setUnit, List.map_map]
  refine congrArg (fun units => { s with units }) (List.map_congr_left fun u _ => ?_)
  by_cases same : u.id = id
  · simp [same, once]
  · simp [same]

theorem setUnit_setUnit (s : Stage) (id : String) (p q : Progress) :
    (s.setUnit id p).setUnit id q = s.setUnit id q := by
  simp only [setUnit, List.map_map]
  refine congrArg (fun units => { s with units }) (List.map_congr_left fun u _ => ?_)
  by_cases same : u.id = id <;> simp [same]

theorem admitted_of_units {s : Stage} (nonempty : s.units ≠ []) (nodup : s.ids.Nodup) (f : String → Progress)
    (verdict : Progress) : s.admitted f verdict = s.land f s.newIds := by
  rw [admitted, if_neg nonempty, land]
  refine congrArg (fun units => { s with units }) (List.map_congr_left fun u hu => ?_)
  have waits : u.id ∈ s.newIds ↔ u.progress = .new := by
    rw [mem_newIds]
    refine ⟨fun ⟨v, hv, new, same⟩ => ?_, fun new => ⟨u, hu, new, rfl⟩⟩
    exact List.inj_on_of_nodup_map nodup hv hu same ▸ new
  by_cases new : u.progress = .new
  · rw [if_pos new, if_pos (waits.mpr new)]
  · rw [if_neg new, if_neg (mt waits.mp new)]

theorem cells_refresh (s : Stage) : s.refresh.cells = s.cells := by
  by_cases empty : s.units = []
  · rw [refresh_of_empty empty]
  · simp [cells, empty]

theorem cells_admitted_refresh (s : Stage) (land : String → Progress) (verdict : Progress) :
    (s.refresh.admitted land verdict).cells = (s.admitted land verdict).cells := by
  by_cases empty : s.units = []
  · rw [refresh_of_empty empty]
  · simp [admitted, cells, empty]

end Stage

namespace Task

def cells (t : Task) : List (Action × List WorkUnit × Option Progress) :=
  t.stages.map Stage.cells

theorem cells_refresh (t : Task) : t.refresh.cells = t.cells :=
  map_refreshStages Stage.cells Stage.cells_refresh t.stages

/-- The ids of the units of `a` that wait. -/
def newIds (t : Task) (a : Action) : List String :=
  ((t.stage? a).map (·.newIds)).getD []

def hasUnits (t : Task) (a : Action) : Bool :=
  (t.stage? a).any (·.hasUnits)

def handle (t : Task) (a : Action) (owner : Nat) (id : String) : Handle :=
  ⟨⟨t.name, a, id⟩, owner⟩

theorem newIds_refresh (t : Task) (a : Action) : t.refresh.newIds a = t.newIds a :=
  congrArg (·.getD []) (map_stage?_refresh Stage.newIds (fun _ => rfl) t a)

theorem WellFormed.newIds_ascending {t : Task} (wf : t.WellFormed) (a : Action) :
    (t.newIds a).Pairwise (· < ·) := by
  unfold newIds
  cases found : t.stage? a with
  | none => exact List.Pairwise.nil
  | some s => exact (wf.stages s (mem_of_stage? found).1).ids.sublist (List.filter_sublist.map _)

theorem hasUnits_refresh (t : Task) (a : Action) : t.refresh.hasUnits a = t.hasUnits a := by
  have same := map_stage?_refresh Stage.hasUnits (fun _ => rfl) t a
  have read : ∀ o : Option Stage, o.any (·.hasUnits) = (o.map Stage.hasUnits).getD false := by
    intro o
    cases o <;> rfl
  rw [hasUnits, hasUnits, read, read, same]

section
variable {t : Task} (wf : t.WellFormed) {s : Stage} (hs : s ∈ t.stages)
include wf hs

theorem replace_self : t.replace s = t := by
  refine congrArg (fun stages => { t with stages }) ((List.map_congr_left fun b hb => ?_).trans
    (List.map_id _))
  by_cases h : b.action = s.action
  · rw [if_pos h, wf.eq_of_action hb hs h, id_eq]
  · rw [if_neg h, id_eq]

theorem updateStage_eq_replace (f : Stage → Stage) (action : (f s).action = s.action) :
    t.updateStage s.action f = t.replace (f s) := by
  refine congrArg (fun stages => { t with stages }) (List.map_congr_left fun b hb => ?_)
  by_cases h : b.action = s.action
  · rw [if_pos h, if_pos (h.trans action.symm), wf.eq_of_action hb hs h]
  · rw [if_neg h, if_neg (action ▸ h)]

end

theorem replace_replace (t : Task) {s s' : Stage} (h : s'.action = s.action) :
    (t.replace s).replace s' = t.replace s' := by
  simp only [replace, updateStage, List.map_map]
  refine congrArg (fun stages => { t with stages }) (List.map_congr_left fun b _ => ?_)
  by_cases hb : b.action = s'.action
  · simp [hb, h]
  · simp [hb, h ▸ hb]

theorem cells_admitted_refresh (t : Task) (a : Action) (land : String → Progress) (verdict : Progress) :
    (t.refresh.updateStage a (Stage.admitted land verdict)).cells =
      (t.updateStage a (Stage.admitted land verdict)).cells := by
  simp only [cells, updateStage, List.map_map]
  refine map_refreshStages _ (fun s => ?_) t.stages
  by_cases h : s.action = a
  · simp [h, Stage.cells_admitted_refresh]
  · simp [h, Stage.cells_refresh]

end Task

/-! ## A burst -/

def PolicyDispatcher.take (d : PolicyDispatcher) (hs : List Handle) : PolicyDispatcher :=
  hs.foldl (fun d h => (d.submit h).1) d

theorem PolicyDispatcher.take_eq (d : PolicyDispatcher) (willing : d.policy.refuses = []) (hs : List Handle) :
    (d.take hs).policy = d.policy ∧ (d.take hs).submitted = d.submitted ++ hs.map (·.toUnitKey) := by
  induction hs generalizing d with
  | nil => exact ⟨rfl, (List.append_nil _).symm⟩
  | cons h hs ih =>
    have serves : d.Serves h (d.submit h).1 (d.submit h).2 := submit_serves rfl
    obtain ⟨policy, submitted⟩ := ih (d.submit h).1 (serves.policy ▸ willing)
    have logged : (d.submit h).1.submitted = d.submitted ++ [h.toUnitKey] := by
      rw [serves.submitted, serves.answer, Policy.receipt_of_willing willing]
      cases d.policy.completion h <;> rfl
    refine ⟨policy.trans serves.policy, submitted.trans ?_⟩
    rw [logged, List.map_cons, List.append_assoc, List.singleton_append]

namespace Round

variable {σ ν : Type}

/-- What a round has become when these units were handed out in it. -/
def handOut (r : Round σ PolicyDispatcher ν) (hs : List Handle) : Round σ PolicyDispatcher ν :=
  { r with
    window := ⟨r.window.inFlight + hs.length, r.window.ceiling⟩
    dispatcher := r.dispatcher.take hs
    handles := r.handles ++ hs
    report := { r.report with admitted := r.report.admitted ++ hs.map (·.toUnitKey) } }

theorem handOut_nil (r : Round σ PolicyDispatcher ν) : r.handOut [] = r := by
  simp [handOut, PolicyDispatcher.take]

theorem handOut_cons (r : Round σ PolicyDispatcher ν) (h : Handle) (hs : List Handle) :
    (r.handOut [h]).handOut hs = r.handOut (h :: hs) := by
  simp [handOut, PolicyDispatcher.take, Nat.add_assoc, Nat.add_comm 1]

theorem submit_of_start {owner : Nat} {a : Action} {t t' : Task} {id : String}
    {r : Round σ PolicyDispatcher ν} (hs : t.start a id = .ok (some t')) (ids : List String) :
    r.submit owner a t (id :: ids) =
      match (r.dispatcher.submit (t'.handle a owner id)).2 with
      | .refused e =>
        (t', { r with
          dispatcher := (r.dispatcher.submit (t'.handle a owner id)).1
          handles := r.handles ++ [t'.handle a owner id] }, some (.dispatch e))
      | .running => (r.handOut [t'.handle a owner id]).submit owner a t' ids
      | .finished o => (r.handOut [t'.handle a owner id]).submit owner a (t'.finish a id o).1 ids := by
  rw [Round.submit]
  simp only [hs]
  rfl

section
variable {t : Task} (wf : t.WellFormed) {s : Stage} (hs : s ∈ t.stages) (owner : Nat)
include wf hs

theorem submit_waiting {id : String} (new : id ∈ s.newIds) (r : Round σ PolicyDispatcher ν)
    (willing : r.dispatcher.policy.refuses = []) (ids : List String) {h : Handle}
    (handle : t.handle s.action owner id = h) :
    r.submit owner s.action t (id :: ids) =
      (r.handOut [h]).submit owner s.action (t.replace (s.setUnit id (r.dispatcher.policy.landing h))) ids ∧
    (submitMoments owner s.action t r.dispatcher (id :: ids)).map (·.2) =
      .submit h (r.dispatcher.policy.receipt h) :: (submitMoments owner s.action
        (t.replace (s.setUnit id (r.dispatcher.policy.landing h))) (r.dispatcher.take [h]) ids).map (·.2) := by
  have started := Task.start_of_waiting wf hs new
  have named : (t.replace (s.setUnit id .running)).handle s.action owner id = h := handle
  have answer := PolicyDispatcher.submit_receipt r.dispatcher h
  have served : ∀ receipt, r.dispatcher.policy.receipt h = receipt →
      Dispatcher.submit r.dispatcher h = (r.dispatcher.take [h], receipt) :=
    fun _ taken => Prod.ext rfl (answer.trans taken)
  obtain rfl := handle
  rw [submit_of_start started, named, answer]
  obtain ⟨taken, landed⟩ | ⟨o, taken, landed⟩ := Policy.landing_cases willing (t.handle s.action owner id)
  · rw [submitMoments_of_start started (served _ taken), taken, landed]
    exact ⟨rfl, rfl⟩
  · have running := Stage.unitProgress?_setUnit (Stage.unitProgress?_of_waiting (wf.stages s hs) new) .running
    have settled := Task.finish_of_running (wf.start started)
      (Task.mem_replace_self hs (s.setUnit_action id .running)) running o
    rw [Task.replace_replace t ((s.setUnit id .running).setUnit_action id o.progress),
      Stage.setUnit_setUnit] at settled
    rw [submitMoments_of_start started (served _ taken), taken, landed, ← settled]
    exact ⟨rfl, rfl⟩

/-- Units that wait are all handed out, and land as the policy has it. -/
theorem submit_willing {ids : List String} (nodup : ids.Nodup) (waiting : ids ⊆ s.newIds)
    (r : Round σ PolicyDispatcher ν) (willing : r.dispatcher.policy.refuses = []) :
    r.submit owner s.action t ids =
      (t.replace (s.land (fun id => r.dispatcher.policy.landing (t.handle s.action owner id)) ids),
        r.handOut (ids.map (t.handle s.action owner)), none) ∧
    (submitMoments owner s.action t r.dispatcher ids).map (·.2) =
      (ids.map (t.handle s.action owner)).map fun h => .submit h (r.dispatcher.policy.receipt h) := by
  induction ids generalizing t s r with
  | nil => exact ⟨by rw [Round.submit, Stage.land_nil, Task.replace_self wf hs, List.map_nil, handOut_nil], rfl⟩
  | cons id ids ih =>
    obtain ⟨new, others⟩ := List.cons_subset.mp waiting
    obtain ⟨once, nodup'⟩ := List.nodup_cons.mp nodup
    obtain ⟨submits, asks⟩ := submit_waiting wf hs owner new r willing ids rfl
    have policy : (r.handOut [t.handle s.action owner id]).dispatcher.policy = r.dispatcher.policy :=
      (r.dispatcher.take_eq willing [t.handle s.action owner id]).1
    rw [submits, asks]
    generalize landed : r.dispatcher.policy.landing (t.handle s.action owner id) = p
    have left := Task.mem_replace_self hs (s.setUnit_action id p)
    have wf' := wf.of_shape (Task.shape_replace wf hs (s.setUnit_action id p) (s.setUnit_ids ..))
    have still : ids ⊆ (s.setUnit id p).newIds := fun j hj =>
      Stage.waiting_setUnit (others hj) (fun same : j = id => once (same ▸ hj)) _
    obtain ⟨done, asked⟩ := ih wf' left nodup' still (r.handOut [t.handle s.action owner id])
      (policy.symm ▸ willing)
    rw [policy] at done asked
    refine ⟨done.trans ?_, congrArg (List.cons _) asked⟩
    rw [Task.replace_replace t (Stage.land_action _ _ (s.setUnit id p)), handOut_cons, List.map_cons,
      ← Stage.land_cons once, landed]
    rfl

end

end Round

/-! ## Admitted tasks -/

/-- A task that a round admits, its position, and the verdict on it where it is compared. -/
structure Admittance where
  task : Task
  owner : Nat
  passed : Bool

namespace Admittance

variable (p : Policy) (a : Action)

def handles (e : Admittance) : List Handle :=
  (e.task.newIds a).map (e.task.handle a e.owner)

def requests (e : Admittance) : List Request :=
  if a.isCompare then [.validate e.owner a (.ofBool e.passed)]
  else (e.handles a).map fun h => .submit h (p.receipt h)

def result (e : Admittance) : Task :=
  e.task.updateStage a (Stage.admitted (fun id => p.landing (e.task.handle a e.owner id))
    (if a.isCompare && !e.passed then .failed else .succeeded))

def skips (es : List Admittance) : List (String × Action) :=
  (es.filter fun e => a.isGated && !e.task.hasUnits a).map fun e => (e.task.name, a)

def verdicts (es : List Admittance) : List (String × Bool) :=
  (es.filter fun _ => a.isCompare).map fun e => (e.task.name, e.passed)

theorem cells_result {e : Admittance} {s : Stage} (wf : e.task.WellFormed) (hs : s ∈ e.task.refresh.stages)
    (ha : s.action = a) : (e.result p a).cells = (e.task.refresh.replace (s.admitted
      (fun id => p.landing (e.task.handle a e.owner id))
      (if a.isCompare && !e.passed then .failed else .succeeded))).cells := by
  subst ha
  rw [result, ← Task.cells_admitted_refresh,
    Task.updateStage_eq_replace (wf.of_shape (Task.shape_refresh _)) hs _ (Stage.admitted_action ..)]

end Admittance

namespace Round

variable {σ ν : Type}

structure Gains (a : Action) (r r' : Round σ PolicyDispatcher ν) (es : List Admittance) : Prop where
  policy : r'.dispatcher.policy = r.dispatcher.policy
  ceiling : r'.window.ceiling = r.window.ceiling
  inFlight : r'.window.inFlight = r.window.inFlight + (es.map fun e => (e.task.newIds a).length).sum
  handles : r'.handles = r.handles ++ es.flatMap (·.handles a)
  submitted : r'.dispatcher.submitted =
    r.dispatcher.submitted ++ (es.flatMap (·.handles a)).map (·.toUnitKey)
  admitted : r'.report.admitted = r.report.admitted ++ (es.flatMap (·.handles a)).map (·.toUnitKey)
  skipped : r'.report.skippedEmpty = r.report.skippedEmpty ++ Admittance.skips a es
  validations : r'.report.validations = r.report.validations ++ Admittance.verdicts a es
  gated : r'.report.gated = r.report.gated

namespace Gains

variable {a : Action} {r r' r'' : Round σ PolicyDispatcher ν} {es es' : List Admittance}

theorem refl (a : Action) (r : Round σ PolicyDispatcher ν) : Gains a r r [] := by
  constructor <;> simp [Admittance.skips, Admittance.verdicts]

theorem append (h : Gains a r r' es) (h' : Gains a r' r'' es') : Gains a r r'' (es ++ es') where
  policy := h'.policy.trans h.policy
  ceiling := h'.ceiling.trans h.ceiling
  inFlight := by rw [h'.inFlight, h.inFlight, List.map_append, List.sum_append, Nat.add_assoc]
  handles := by rw [h'.handles, h.handles, List.flatMap_append, List.append_assoc]
  submitted := by rw [h'.submitted, h.submitted, List.flatMap_append, List.map_append, List.append_assoc]
  admitted := by rw [h'.admitted, h.admitted, List.flatMap_append, List.map_append, List.append_assoc]
  skipped := by
    rw [h'.skipped, h.skipped, Admittance.skips, Admittance.skips, Admittance.skips, List.filter_append,
      List.map_append, List.append_assoc]
  validations := by
    rw [h'.validations, h.validations, Admittance.verdicts, Admittance.verdicts, Admittance.verdicts,
      List.filter_append, List.map_append, List.append_assoc]
  gated := h'.gated.trans h.gated

end Gains

/-- What admitting the task of `e` for `a` comes to, and what is asked for it. -/
structure TakesOn (a : Action) (r : Round σ PolicyDispatcher ν) (e : Admittance)
    (out : Task × Round σ PolicyDispatcher ν × Course) (asked : List Request) : Prop where
  course : out.2.2 = .next
  name : out.1.name = e.task.name
  cells : out.1.cells = (e.result r.dispatcher.policy a).cells
  gains : Gains a r out.2.1 [e]
  requests : asked = e.requests r.dispatcher.policy a

section
variable {a : Action} {r : Round σ PolicyDispatcher ν} {t : Task} {s : Stage} (turn : r.Turn a t.refresh s)
  (wf : t.WellFormed)
include turn wf

theorem Turn.stage_eq : t.refresh.stage? a = some s :=
  turn.action_eq ▸ (wf.of_shape (Task.shape_refresh t)).stage?_of_mem turn.found

theorem Turn.newIds_eq : t.newIds a = s.newIds := by
  rw [← Task.newIds_refresh, Task.newIds, turn.stage_eq wf]
  rfl

theorem Turn.hasUnits_eq : t.hasUnits a = s.hasUnits := by
  rw [← Task.hasUnits_refresh, Task.hasUnits, turn.stage_eq wf]
  rfl

theorem Turn.no_newIds (empty : s.units = []) : t.newIds a = [] := by
  rw [turn.newIds_eq wf, Stage.newIds, empty]
  rfl

theorem Turn.submits (owner : Nat) (willing : r.dispatcher.policy.refuses = []) :
    r.submit owner a t.refresh s.newIds =
      (t.refresh.replace (s.land (fun id => r.dispatcher.policy.landing (t.handle a owner id)) s.newIds),
        r.handOut (s.newIds.map (t.handle a owner)), none) ∧
    (submitMoments owner a t.refresh r.dispatcher s.newIds).map (·.2) =
      (s.newIds.map (t.handle a owner)).map fun h => .submit h (r.dispatcher.policy.receipt h) := by
  have wf' := wf.of_shape (Task.shape_refresh t)
  obtain rfl := turn.action_eq
  exact submit_willing wf' turn.found owner (Stage.newIds_nodup (wf'.stages s turn.found).nodup)
    (List.Subset.refl _) r willing

end

section
variable [NameStore σ]

theorem conclude_gains (a : Action) (r : Round σ PolicyDispatcher ν) (t : Task) :
    Gains a r (r.conclude t).2.1 [] := by
  obtain ⟨-, same⟩ | ⟨-, same⟩ := settleTask_cases t r.log r.report <;>
    constructor <;> simp [conclude, settle, same, Admittance.skips, Admittance.verdicts]

theorem Gains.conclude {a : Action} {r r' : Round σ PolicyDispatcher ν} {es : List Admittance}
    (h : Gains a r r' es) (t : Task) : Gains a r (r'.conclude t).2.1 es := by
  have settled := h.append (conclude_gains a r' t)
  rwa [List.append_nil] at settled

section
variable {a : Action} {r r' : Round σ PolicyDispatcher ν} {t : Task} {s : Stage} {asked : List Request}
  (wf : t.WellFormed) (turn : r.Turn a t.refresh s) (owner : Nat)
include wf turn

/-- Once its stage is left as the admission has it, the task only has to be concluded. -/
theorem takesOn_conclude {passed : Bool} (gains : Gains a r r' [⟨t, owner, passed⟩])
    (requests : asked = (⟨t, owner, passed⟩ : Admittance).requests r.dispatcher.policy a) {left : Stage}
    (admitted : s.admitted (fun id => r.dispatcher.policy.landing (t.handle a owner id))
      (if a.isCompare && !passed then .failed else .succeeded) = left) :
    TakesOn a r ⟨t, owner, passed⟩ (r'.conclude (t.refresh.replace left)) asked where
  course := rfl
  name := by
    rw [conclude_task]
    rfl
  cells := by
    rw [conclude_task, Task.cells_refresh, Admittance.cells_result _ _ wf turn.found turn.action_eq, admitted]
  gains := gains.conclude _
  requests := requests

theorem judge_takesOn (compare : a.isCompare = true) (empty : s.units = []) (v : ν) (passed : Bool) :
    TakesOn a r ⟨t, owner, passed⟩
      (({ r with
          validator := v
          report := { r.report with
            validations := r.report.validations ++ [(t.refresh.name, passed)] } }).conclude
        (t.refresh.replace { s with progress := if passed then .succeeded else .failed }))
      [.validate owner a (.ofBool passed)] := by
  have none := turn.no_newIds wf empty
  have named : t.refresh.name = t.name := rfl
  refine takesOn_conclude wf turn owner ?_ (by simp [Admittance.requests, compare]) ?_
  · constructor <;>
      simp [Admittance.handles, Admittance.skips, Admittance.verdicts, none, named, compare, Action.isGated]
  · rw [Stage.admitted, if_pos empty]
    cases passed <;> simp [compare]

theorem skip_takesOn (gated : a.isCompare = false) (empty : s.units = []) :
    TakesOn a r ⟨t, owner, true⟩
      (({ r with report :=
          { r.report with skippedEmpty := r.report.skippedEmpty ++ [(t.refresh.name, a)] } }).conclude
        (t.refresh.replace { s with progress := .succeeded })) [] := by
  have none := turn.no_newIds wf empty
  have without : t.hasUnits a = false := (turn.hasUnits_eq wf).trans (by simp [Stage.hasUnits, empty])
  have named : t.refresh.name = t.name := rfl
  refine takesOn_conclude wf turn owner ?_ (by simp [Admittance.requests, Admittance.handles, none, gated]) ?_
  · constructor <;>
      simp [Admittance.handles, Admittance.skips, Admittance.verdicts, none, without, named, gated, Action.isGated]
  · rw [Stage.admitted, if_pos empty]
    simp

theorem work_takesOn (nonempty : s.units ≠ []) (willing : r.dispatcher.policy.refuses = []) :
    TakesOn a r ⟨t, owner, true⟩
      ((r.handOut (s.newIds.map (t.handle a owner))).conclude (t.refresh.replace
        (s.land (fun id => r.dispatcher.policy.landing (t.handle a owner id)) s.newIds)))
      ((s.newIds.map (t.handle a owner)).map fun h => .submit h (r.dispatcher.policy.receipt h)) := by
  have shape := (wf.of_shape (Task.shape_refresh t)).stages s turn.found
  have gated : a.isCompare = false := by
    cases h : a.isCompare
    · rfl
    · exact absurd (shape.compare (turn.action_eq ▸ h)) nonempty
  have within : t.hasUnits a = true := (turn.hasUnits_eq wf).trans (Stage.hasUnits_iff.mpr nonempty)
  have ids := turn.newIds_eq wf
  refine takesOn_conclude wf turn owner ?_ ?_ (Stage.admitted_of_units nonempty shape.nodup _ _)
  · obtain ⟨policy, taken⟩ := r.dispatcher.take_eq willing (s.newIds.map (t.handle a owner))
    constructor <;>
      simp [handOut, policy, taken, Admittance.handles, Admittance.skips, Admittance.verdicts, ids, within, gated]
  · rw [Admittance.requests, gated, Admittance.handles, ids]
    rfl

end

variable [Validator ν]

theorem admitTask_ready {t : Task} (wf : t.WellFormed) (owner : Nat) {a : Action}
    {r : Round σ PolicyDispatcher ν} (willing : r.dispatcher.policy.refuses = [])
    (calm : ∀ payload, .validate owner a (.crashed payload) ∉ (admitMoments owner a t r).map (·.2))
    (ready : t.refresh.isReady a = true) (isOpen : r.window.isOpen = true) :
    ∃ passed, TakesOn a r ⟨t, owner, passed⟩ (r.admitTask owner a t)
      ((admitMoments owner a t r).map (·.2)) := by
  have visit := admitTask_visit wf owner a r
  generalize r.admitTask owner a t = out, admitMoments owner a t r = ms at visit calm
  cases visit with
  | idle passed =>
    obtain ⟨not, -⟩ | ⟨not, -⟩ := passed
    · exact absurd ready (by simp [not])
    · exact absurd isOpen (by simp [not])
  | crash turn asked => exact absurd (List.mem_singleton_self _) (calm _)
  | @judge v passed s turn compare empty asked =>
    exact ⟨passed, judge_takesOn wf turn owner compare empty v passed⟩
  | skip turn gated empty => exact ⟨true, skip_takesOn wf turn owner gated empty⟩
  | halt turn submitted => cases submitted.symm.trans (turn.submits wf owner willing).1
  | work turn nonempty submitted =>
    obtain ⟨done, asked⟩ := turn.submits wf owner willing
    cases submitted.symm.trans done
    exact ⟨true, asked ▸ work_takesOn wf turn owner nonempty willing⟩

end

end Round

/-! ## A whole round -/

/-- The tasks that are ready for `a` once they are refreshed, with their positions from `owner` on. -/
def readyFrom (a : Action) (owner : Nat) (ts : List Task) : List (Task × Nat) :=
  (ts.zipIdx owner).filter fun p => p.1.refresh.isReady a

theorem le_of_mem_readyFrom {a : Action} {owner : Nat} {ts : List Task} {p : Task × Nat}
    (h : p ∈ readyFrom a owner ts) : owner ≤ p.2 :=
  (List.mem_zipIdx (List.mem_of_mem_filter h)).1

theorem mem_of_mem_readyFrom {a : Action} {owner : Nat} {ts : List Task} {p : Task × Nat}
    (h : p ∈ readyFrom a owner ts) : p.1 ∈ ts :=
  List.fst_mem_of_mem_zipIdx (List.mem_of_mem_filter h)

theorem readyFrom_cons_ready {a : Action} {t : Task} (ready : t.refresh.isReady a = true) (owner : Nat)
    (ts : List Task) : readyFrom a owner (t :: ts) = (t, owner) :: readyFrom a (owner + 1) ts := by
  simp [readyFrom, List.zipIdx_cons, ready]

theorem readyFrom_cons_not_ready {a : Action} {t : Task} (h : t.refresh.isReady a = false) (owner : Nat)
    (ts : List Task) : readyFrom a owner (t :: ts) = readyFrom a (owner + 1) ts := by
  simp [readyFrom, List.zipIdx_cons, h]

def Window.after (w : Window) (a : Action) (ready : List (Task × Nat)) : Window :=
  ⟨w.inFlight + (ready.map fun p => (p.1.newIds a).length).sum, w.ceiling⟩

theorem Window.after_cons (w : Window) (a : Action) (p : Task × Nat) (ready : List (Task × Nat)) :
    w.after a (p :: ready) = (w.after a [p]).after a ready := by
  simp [Window.after, Nat.add_assoc]

theorem Window.isOpen_of_after {w : Window} {a : Action} {ready : List (Task × Nat)}
    (h : (w.after a ready).isOpen = true) : w.isOpen = true := by
  obtain ⟨n, _ | c⟩ := w
  · rfl
  · exact decide_eq_true (Nat.lt_of_le_of_lt (Nat.le_add_right ..) (of_decide_eq_true h))

/-- The cells of the task at position `i` after these tasks were admitted. -/
def Admittance.cellsAfter (p : Policy) (a : Action) (es : List Admittance) (i : Nat) (t : Task) :
    List (Action × List WorkUnit × Option Progress) :=
  match es.find? (·.owner == i) with
  | some e => (e.result p a).cells
  | none => t.cells

theorem Admittance.cellsAfter_cons (p : Policy) (a : Action) (e : Admittance) (es : List Admittance)
    (i : Nat) (t : Task) :
    cellsAfter p a (e :: es) i t = if e.owner = i then (e.result p a).cells else cellsAfter p a es i t := by
  unfold cellsAfter
  by_cases here : e.owner = i <;> simp [here]

namespace Round

variable {σ ν : Type} [NameStore σ] [Validator ν]

/-- What a round does to tasks from position `owner` on: `es` are admitted, a prefix of those ready. -/
structure AdmitsPrefix (a : Action) (owner : Nat) (r : Round σ PolicyDispatcher ν) (ts : List Task)
    (r' : Round σ PolicyDispatcher ν) (ts' : List Task) (es : List Admittance) : Prop where
  chosen : ∃ m ≤ (readyFrom a owner ts).length,
    es.map (fun e => (e.task, e.owner)) = (readyFrom a owner ts).take m ∧
    ∀ i < (readyFrom a owner ts).length,
      i < m ↔ (r.window.after a ((readyFrom a owner ts).take i)).isOpen = true
  gains : Gains a r r' es
  requests : (r.moments a owner ts).map (·.request) = es.flatMap (·.requests r.dispatcher.policy a)
  length_eq : ts'.length = ts.length
  cells : ∀ (i : Nat) (t : Task), ts[i]? = some t → ∃ t', ts'[i]? = some t' ∧ t'.name = t.name ∧
    t'.cells = Admittance.cellsAfter r.dispatcher.policy a es (owner + i) t

theorem AdmitsPrefix.le_owner {a : Action} {owner : Nat} {r r' : Round σ PolicyDispatcher ν} {ts ts' : List Task}
    {es : List Admittance} (h : AdmitsPrefix a owner r ts r' ts' es) : ∀ e ∈ es, owner ≤ e.owner := by
  intro e he
  obtain ⟨m, -, same, -⟩ := h.chosen
  have mem : (e.task, e.owner) ∈ (readyFrom a owner ts).take m := same ▸ List.mem_map_of_mem he
  exact le_of_mem_readyFrom (List.mem_of_mem_take mem)

section
variable {a : Action} {owner : Nat} {r r' r'' : Round σ PolicyDispatcher ν} {t t' : Task} {ts ts' : List Task}
  {es : List Admittance}

theorem AdmitsPrefix.closed (isOpen : r.window.isOpen = false) (none : r.moments a owner (t :: ts) = []) :
    AdmitsPrefix a owner r (t :: ts) r (t.refresh :: ts) [] where
  chosen := by
    refine ⟨0, Nat.zero_le _, rfl, fun i _ => iff_of_false (Nat.not_lt_zero i) fun h => ?_⟩
    rw [Window.isOpen_of_after h] at isOpen
    cases isOpen
  gains := .refl a r
  requests := congrArg _ none
  length_eq := rfl
  cells i u at_i := by
    cases i with
    | zero =>
      obtain rfl := Option.some.inj at_i
      exact ⟨t.refresh, rfl, rfl, t.cells_refresh⟩
    | succ i => exact ⟨u, at_i, rfl, rfl⟩

theorem AdmitsPrefix.over (admits : AdmitsPrefix a (owner + 1) r ts r' ts' es)
    (ready : t.refresh.isReady a = false) (later : r.moments a owner (t :: ts) =
      (r.moments a (owner + 1) ts).map fun m => ⟨t.refresh :: m.tasks, m.request⟩) :
    AdmitsPrefix a owner r (t :: ts) r' (t.refresh :: ts') es where
  chosen := by
    rw [readyFrom_cons_not_ready ready]
    exact admits.chosen
  gains := admits.gains
  requests := by
    rw [later, List.map_map]
    exact admits.requests
  length_eq := congrArg (· + 1) admits.length_eq
  cells i u at_i := by
    cases i with
    | zero =>
      obtain rfl := Option.some.inj at_i
      refine ⟨t.refresh, rfl, rfl, ?_⟩
      -- those admitted all come after it
      have others : es.find? (·.owner == owner + 0) = none := by
        refine List.find?_eq_none.mpr fun e he => ?_
        simpa using (Nat.ne_of_lt (admits.le_owner e he)).symm
      rw [Admittance.cellsAfter, others]
      exact t.cells_refresh
    | succ i =>
      obtain ⟨u', at_i', name, same⟩ := admits.cells i u at_i
      exact ⟨u', at_i', name, by rwa [Nat.add_right_comm] at same⟩

theorem AdmitsPrefix.next (admits : AdmitsPrefix a (owner + 1) r' ts r'' ts' es)
    (ready : t.refresh.isReady a = true) (isOpen : r.window.isOpen = true) {passed : Bool}
    {asked : List Request} (taken : TakesOn a r ⟨t, owner, passed⟩ (t', r', .next) asked)
    (requests : (r.moments a owner (t :: ts)).map (·.request) =
      asked ++ (r'.moments a (owner + 1) ts).map (·.request)) :
    AdmitsPrefix a owner r (t :: ts) r'' (t' :: ts') (⟨t, owner, passed⟩ :: es) where
  chosen := by
    obtain ⟨m, le, same, ends⟩ := admits.chosen
    rw [readyFrom_cons_ready ready]
    refine ⟨m + 1, Nat.succ_le_succ le, congrArg₂ List.cons rfl same, fun i lt => ?_⟩
    have window : r.window.after a [(t, owner)] = r'.window := by
      change _ = (⟨r'.window.inFlight, r'.window.ceiling⟩ : Window)
      rw [taken.gains.inFlight, taken.gains.ceiling]
      rfl
    cases i with
    | zero => simp [Window.after, isOpen]
    | succ i =>
      rw [List.take_succ_cons, Window.after_cons, window, Nat.succ_lt_succ_iff]
      exact ends i (Nat.lt_of_succ_lt_succ lt)
  gains := taken.gains.append admits.gains
  requests := by
    rw [requests, taken.requests, List.flatMap_cons]
    exact congrArg _ (taken.gains.policy ▸ admits.requests)
  length_eq := congrArg (· + 1) admits.length_eq
  cells i u at_i := by
    cases i with
    | zero =>
      obtain rfl := Option.some.inj at_i
      refine ⟨t', rfl, taken.name, ?_⟩
      rw [Admittance.cellsAfter_cons, if_pos (Nat.add_zero owner).symm]
      exact taken.cells
    | succ i =>
      obtain ⟨u', at_i', name', same⟩ := admits.cells i u at_i
      refine ⟨u', at_i', name', ?_⟩
      have later : owner ≠ owner + (i + 1) := by omega
      rw [Admittance.cellsAfter_cons, if_neg later, Nat.add_comm i, ← Nat.add_assoc, ← taken.gains.policy]
      exact same

end

theorem run_admits (a : Action) (owner : Nat) (r : Round σ PolicyDispatcher ν) (ts : List Task)
    (wf : ∀ t ∈ ts, t.WellFormed) (willing : r.dispatcher.policy.refuses = [])
    (calm : ∀ m ∈ r.moments a owner ts, ∀ i b payload, m.request ≠ .validate i b (.crashed payload)) :
    ∃ ts' r' es, r.run a owner ts = (ts', r', none) ∧
      AdmitsPrefix a owner r ts r' ts' es := by
  induction ts generalizing owner r with
  | nil =>
    refine ⟨[], r, [], rfl, ⟨0, Nat.le_refl 0, rfl, nofun⟩, .refl a r, rfl, rfl, fun i t h => ?_⟩
    simp at h
  | cons t ts ih =>
    obtain ⟨head, rest⟩ := List.forall_mem_cons.mp wf
    by_cases ready : t.refresh.isReady a = true
    · by_cases isOpen : r.window.isOpen = true
      · have asked : ∀ payload, .validate owner a (.crashed payload) ∉ (admitMoments owner a t r).map (·.2) := by
          intro payload h
          obtain ⟨q, hq, same⟩ := List.mem_map.mp h
          exact calm ⟨q.1 :: ts, q.2⟩ (by
            rw [moments]
            exact List.mem_append_left _ (List.mem_map.mpr ⟨q, hq, rfl⟩)) _ _ _ same
        obtain ⟨passed, taken⟩ := admitTask_ready head owner willing asked ready isOpen
        obtain ⟨t', r', admitted⟩ : ∃ t' r', r.admitTask owner a t = (t', r', .next) :=
          ⟨_, _, Prod.ext rfl (Prod.ext rfl taken.course)⟩
        rw [admitted] at taken
        have all : r.moments a owner (t :: ts) =
            (admitMoments owner a t r).map (fun q => ⟨q.1 :: ts, q.2⟩) ++
              (r'.moments a (owner + 1) ts).map fun m => ⟨t' :: m.tasks, m.request⟩ := by
          rw [moments, admitted]
        rw [all, List.forall_mem_append, List.forall_mem_map, List.forall_mem_map] at calm
        obtain ⟨ts', r'', es, ran, admits⟩ := ih (owner + 1) r' rest (taken.gains.policy ▸ willing) calm.2
        refine ⟨t' :: ts', r'', ⟨t, owner, passed⟩ :: es, by rw [run, admitted]; simp only [ran],
          admits.next ready isOpen taken ?_⟩
        rw [all, List.map_append, List.map_map, List.map_map]
        rfl
      · rw [Bool.not_eq_true] at isOpen
        have closed : r.admitTask owner a t = (t.refresh, r, .closed) := by simp [admitTask, ready, isOpen]
        have none : r.moments a owner (t :: ts) = [] := by
          rw [moments, closed]
          simp [admitMoments, isOpen]
        exact ⟨t.refresh :: ts, r, [], by rw [run, closed], .closed isOpen none⟩
    · rw [Bool.not_eq_true] at ready
      have idle : admitMoments owner a t r = [] := by simp [admitMoments, ready]
      have passed := admitTask_of_not_ready ready owner r
      have later : r.moments a owner (t :: ts) =
          (r.moments a (owner + 1) ts).map fun m => ⟨t.refresh :: m.tasks, m.request⟩ := by
        rw [moments, idle, passed]
        rfl
      rw [later, List.forall_mem_map] at calm
      obtain ⟨ts', r', es, ran, admits⟩ := ih (owner + 1) r rest willing calm
      exact ⟨t.refresh :: ts', r', es, by rw [run, passed]; simp only [ran], admits.over ready later⟩

end Round

theorem Gate.admission_eq_ungated_iff (g : Gate) (a : Action) (ts : List Task) :
    g.admission a ts = .ungated ↔ a.isCompare = true := by
  unfold admission
  by_cases compare : a.isCompare = true
  · simp [compare]
  · rw [if_neg compare]
    refine iff_of_false (fun h => ?_) compare
    cases ceiling : g.ceiling a with
    | none => rw [ceiling] at h; cases h
    | some c =>
      rw [ceiling] at h
      dsimp only at h
      split at h <;> cases h

namespace Scheduler

variable {σ ν : Type} [NameStore σ] [Validator ν]

/-- A call for `a` comes to admitting these tasks, and to nothing else. -/
structure AdmitsExactly (s : Scheduler σ PolicyDispatcher ν) (a : Action) (report : Report)
    (s' : Scheduler σ PolicyDispatcher ν) (report' : Report) (es : List Admittance) : Prop where
  handles : s'.handles = s.handles ++ es.flatMap (·.handles a)
  ascending : ∀ e ∈ es, (e.task.newIds a).Pairwise (· < ·)
  submitted : s'.dispatcher.submitted =
    s.dispatcher.submitted ++ (es.flatMap (·.handles a)).map (·.toUnitKey)
  requests : (s.scheduleMoments a report).map (·.request) = es.flatMap (·.requests s.dispatcher.policy a)
  admitted : report'.admitted = report.admitted ++ (es.flatMap (·.handles a)).map (·.toUnitKey)
  skipped : report'.skippedEmpty = report.skippedEmpty ++ Admittance.skips a es
  validations : report'.validations = report.validations ++ Admittance.verdicts a es
  gated : report'.gated = report.gated
  length_eq : s'.tasks.length = s.tasks.length
  cells : ∀ (i : Nat) (t : Task), s.tasks[i]? = some t → ∃ t', s'.tasks[i]? = some t' ∧
    t'.name = t.name ∧ t'.cells = Admittance.cellsAfter s.dispatcher.policy a es i t

theorem admitWith_exactly {s : Scheduler σ PolicyDispatcher ν} (wf : ∀ t ∈ s.tasks, t.WellFormed)
    (willing : s.dispatcher.policy.refuses = []) {a : Action} {report : Report} {window : Window}
    (scheduled : s.schedule a report = s.admitWith a report window)
    (asked : s.scheduleMoments a report = s.windowMoments a report window)
    (calm : ∀ owner b payload,
      .validate owner b (.crashed payload) ∉ (s.scheduleMoments a report).map (·.request)) :
    ∃ s' report' es m, s.schedule a report = (s', report', none) ∧ s.AdmitsExactly a report s' report' es ∧
      m ≤ (readyFrom a 0 s.tasks).length ∧
      es.map (fun e => (e.task, e.owner)) = (readyFrom a 0 s.tasks).take m ∧
      ∀ i < (readyFrom a 0 s.tasks).length,
        i < m ↔ (window.after a ((readyFrom a 0 s.tasks).take i)).isOpen = true := by
  rw [asked] at calm
  obtain ⟨ts', r', es, ran, ⟨m, le, same, ends⟩, gains, requests, length_eq, cells⟩ :=
    Round.run_admits a 0 ⟨window, s.log, s.dispatcher, s.validator, s.counts, s.handles, report⟩ s.tasks wf
      willing fun q hq owner b payload same => calm owner b payload (List.mem_map.mpr ⟨q, hq, same⟩)
  refine ⟨_, _, es, m, by rw [scheduled, admitWith, ran], ?_, le, same, ends⟩
  have ascending : ∀ e ∈ es, (e.task.newIds a).Pairwise (· < ·) := by
    intro e he
    have mem : (e.task, e.owner) ∈ (readyFrom a 0 s.tasks).take m := same ▸ List.mem_map_of_mem he
    exact (wf e.task (mem_of_mem_readyFrom (List.mem_of_mem_take mem))).newIds_ascending a
  exact ⟨gains.handles, ascending, gains.submitted, asked ▸ requests, gains.admitted, gains.skipped,
    gains.validations, gains.gated, length_eq, fun i t at_i => by simpa using cells i t at_i⟩

/-- What scheduling an action comes to, in any reachable state, while nothing is refused and no comparison
crashes. Behind a gate that is open the tasks that are ready are admitted in order, each as long as what
runs and what waits in the ready ones before it is below the ceiling; the compare stage admits them all;
and behind any other gate nothing happens but an entry in the report. -/
theorem schedule_exact {tasks : List Task} (fresh : ∀ t ∈ tasks, t.Fresh) {plan : Plan} {gate : Gate}
    {log : FailoverLog σ} {d : PolicyDispatcher} {v : ν} {s : Scheduler σ PolicyDispatcher ν}
    (run : Reaches .any (.new plan tasks gate log d v) s) (willing : s.dispatcher.policy.refuses = [])
    (a : Action) (report : Report) (calm : ∀ owner b payload,
      .validate owner b (.crashed payload) ∉ (s.scheduleMoments a report).map (·.request)) :
    match s.gate.admission a s.tasks with
    | .saturated k c =>
      s.schedule a report = (s, { report with gated := report.gated ++ [(a, .saturated k c)] }, none)
    | .unconfigured =>
      s.schedule a report = (s, { report with gated := report.gated ++ [(a, .unconfigured)] }, none)
    | .opened k c => a.isCompare = false ∧ ∃ s' report' es m,
      s.schedule a report = (s', report', none) ∧ s.AdmitsExactly a report s' report' es ∧
      m ≤ (readyFrom a 0 s.tasks).length ∧
      es.map (fun e => (e.task, e.owner)) = (readyFrom a 0 s.tasks).take m ∧
      ∀ i < (readyFrom a 0 s.tasks).length,
        i < m ↔ k + (((readyFrom a 0 s.tasks).take i).map fun p => (p.1.newIds a).length).sum < c
    | .ungated => a.isCompare = true ∧ ∃ s' report' es,
      s.schedule a report = (s', report', none) ∧ s.AdmitsExactly a report s' report' es ∧
      es.map (fun e => (e.task, e.owner)) = readyFrom a 0 s.tasks := by
  have start := new_wellFormed fresh plan gate log d v
  have wf := (run.evolves start).wellFormed start
  have compare := s.gate.admission_eq_ungated_iff a s.tasks
  cases admission : s.gate.admission a s.tasks with
  | saturated k c => simp only [schedule, admission]
  | unconfigured => simp only [schedule, admission]
  | opened k c =>
    have gated : a.isCompare = false := by
      rw [← Bool.not_eq_true, ← compare, admission]
      nofun
    have scheduled : s.schedule a report = s.admitWith a report (.bounded k c) := by
      simp only [schedule, admission]
    have asked : s.scheduleMoments a report = s.windowMoments a report (.bounded k c) := by
      simp only [scheduleMoments, admission]
    obtain ⟨s', report', es, m, done, exactly, le, same, ends⟩ :=
      admitWith_exactly wf willing scheduled asked calm
    refine ⟨gated, s', report', es, m, done, exactly, le, same, fun i lt => (ends i lt).trans ?_⟩
    exact decide_eq_true_iff
  | ungated =>
    have scheduled : s.schedule a report = s.admitWith a report .unbounded := by
      simp only [schedule, admission]
    have asked : s.scheduleMoments a report = s.windowMoments a report .unbounded := by
      simp only [scheduleMoments, admission]
    obtain ⟨s', report', es, m, done, exactly, le, same, ends⟩ :=
      admitWith_exactly wf willing scheduled asked calm
    refine ⟨compare.mp admission, s', report', es, done, exactly, same.trans (List.take_of_length_le ?_)⟩
    exact Nat.le_of_not_lt fun lt => Nat.lt_irrefl m ((ends m lt).mpr rfl)

end Scheduler

/-! ## A burst past the ceiling -/

namespace OneSlot

def start : Scheduler MemoryStore PolicyDispatcher FixedValidator :=
  following .hold

theorem ready : readyFrom .createTable 0 start.tasks = [(OneTable.task, 0), (second, 1)] := by
  decide

theorem first_alone : ∃ s' report' es, start.schedule .createTable .empty = (s', report', none) ∧
    start.AdmitsExactly .createTable .empty s' report' es ∧ es.map (·.owner) = [0] := by
  have calm : ∀ owner b payload, .validate owner b (.crashed payload) ∉
      (start.scheduleMoments .createTable .empty).map (·.request) := by
    intro owner b payload h
    have asked : (start.scheduleMoments .createTable .empty).map (·.request) =
        [.submit ⟨⟨"db.t", .createTable, "p=1"⟩, 0⟩ .running,
          .submit ⟨⟨"db.t", .createTable, "p=2"⟩, 0⟩ .running] := rfl
    rw [asked] at h
    simp at h
  have reached : Scheduler.Reaches .any start start := .refl
  have exact := Scheduler.schedule_exact tasks_fresh reached rfl .createTable .empty calm
  have opened : start.gate.admission .createTable start.tasks = .opened 0 1 := rfl
  rw [opened, ready] at exact
  obtain ⟨-, s', report', es, m, done, exactly, -, same, ends⟩ := exact
  have one : m = 1 := by
    have admitted := (ends 0 (by decide)).mpr (by decide)
    have blocked := mt (ends 1 (by decide)).mp (by decide)
    omega
  refine ⟨s', report', es, done, exactly, ?_⟩
  rw [one] at same
  simpa [Function.comp_def] using congrArg (List.map Prod.snd) same

end OneSlot

end TableMigration
