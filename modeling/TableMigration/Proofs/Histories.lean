import TableMigration.Proofs.Advances
import TableMigration.Proofs.Tracking

/-!
# Histories of units

A chronicle lists what a run asks for and what is reported for units, as it happens. Read for one
unit it is short: the unit is submitted once, the first outcome reported for it counts and stays, and
every later one is turned away.
-/

namespace TableMigration

/-- Where a unit is: handles of the same cell are clones of each other. -/
structure Cell where
  owner : Nat
  action : Action
  unit : String
  deriving DecidableEq, Repr

def Handle.cell (h : Handle) : Cell := ⟨h.owner, h.action, h.unit⟩

inductive Mark
  | submitted
  | reported (o : Outcome) (counted : Bool)
  deriving DecidableEq, Repr

/-- What a mark makes of the progress of its unit; an outcome counts for a unit that runs. -/
inductive Mark.Takes : Mark → Option Progress → Option Progress → Prop
  | start : Takes .submitted (some .new) (some .running)
  | settle (o : Outcome) : Takes (.reported o true) (some .running) (some o.progress)
  | late (o : Outcome) {p : Option Progress} (idle : p ≠ some .running) : Takes (.reported o false) p p

inductive Passage : Option Progress → List Mark → Option Progress → Prop
  | nil (p : Option Progress) : Passage p [] p
  | cons {m : Mark} {ms : List Mark} {p q r : Option Progress} (head : m.Takes p q)
      (rest : Passage q ms r) : Passage p (m :: ms) r

/-- The whole life of a unit so far, from the marks it has. -/
inductive Story : Option Progress → List Mark → Option Progress → Prop
  | untouched (p : Option Progress) : Story p [] p
  | running : Story (some .new) [.submitted] (some .running)
  | finished (o : Outcome) (late : List Outcome) :
      Story (some .new) (.submitted :: .reported o true :: late.map (.reported · false))
        (some o.progress)

namespace Passage

theorem append {p q r : Option Progress} {ms ns : List Mark} (h : Passage p ms q)
    (h' : Passage q ns r) : Passage p (ms ++ ns) r := by
  induction h with
  | nil p => exact h'
  | cons head _ ih => exact .cons head (ih h')

theorem single {m : Mark} {p q : Option Progress} (h : m.Takes p q) : Passage p [m] q :=
  .cons h (.nil q)

theorem split {p r : Option Progress} {ms ns : List Mark} (h : Passage p (ms ++ ns) r) :
    ∃ q, Passage p ms q ∧ Passage q ns r := by
  induction ms generalizing p with
  | nil => exact ⟨p, .nil p, h⟩
  | cons m ms ih =>
    cases h with
    | cons head rest =>
      obtain ⟨q, before, after⟩ := ih rest
      exact ⟨q, .cons head before, after⟩

theorem of_submitted {p r : Option Progress} {ms : List Mark} (h : Passage p (.submitted :: ms) r) :
    p = some .new ∧ Passage (some .running) ms r := by
  cases h with
  | cons head rest =>
    cases head
    exact ⟨rfl, rest⟩

theorem of_reported {o : Outcome} {counted : Bool} {r : Option Progress} {ms : List Mark}
    (h : Passage (some .running) (.reported o counted :: ms) r) :
    counted = true ∧ Passage (some o.progress) ms r := by
  cases h with
  | cons head rest =>
    cases head with
    | settle => exact ⟨rfl, rest⟩
    | late _ idle => exact absurd rfl idle

theorem of_terminal {o : Outcome} {ms : List Mark} {q : Option Progress}
    (h : Passage (some o.progress) ms q) :
    q = some o.progress ∧ ∃ late : List Outcome, ms = late.map (.reported · false) := by
  generalize start : some o.progress = p at h
  induction h with
  | nil p => exact ⟨rfl, [], rfl⟩
  | cons head _ ih =>
    cases head with
    | start => cases o <;> cases start
    | settle o' => cases o <;> cases start
    | late o' _ =>
      obtain ⟨same, late, rfl⟩ := ih start
      exact ⟨same, o' :: late, rfl⟩

theorem story {p q : Option Progress} {ms : List Mark} (h : Passage p ms q)
    (opens : ms = [] ∨ ms.head? = some .submitted) : Story p ms q := by
  cases h with
  | nil p => exact .untouched p
  | cons head rest =>
    obtain rfl := Option.some.inj (opens.resolve_left nofun)
    cases head
    cases rest with
    | nil _ => exact .running
    | cons head rest =>
      cases head with
      | settle o =>
        obtain ⟨rfl, late, rfl⟩ := rest.of_terminal
        exact .finished o late
      | late o idle => exact absurd rfl idle

end Passage

/-! ## Units of a task -/

namespace Stage

theorem unitProgress?_setUnit_ne (s : Stage) {id j : String} (ne : j ≠ id) (p : Progress) :
    (s.setUnit id p).unitProgress? j = s.unitProgress? j := by
  unfold unitProgress? setUnit
  have same : ((fun u : WorkUnit => u.id == j) ∘
      fun u => if u.id = id then { u with progress := p } else u) = fun u => u.id == j := by
    funext u
    by_cases hu : u.id = id <;> simp [hu]
  rw [List.find?_map, same, Option.map_map]
  refine Option.map_congr fun u hu => ?_
  have found : u.id = j := by simpa using List.find?_some hu
  rw [Function.comp_apply, if_neg (found ▸ ne)]

end Stage

namespace Task

variable {t t' : Task}

theorem unitProgress?_refresh (t : Task) (a : Action) (id : String) :
    t.refresh.unitProgress? a id = t.unitProgress? a id := by
  have read : ∀ t : Task, t.unitProgress? a id = ((t.stage? a).map (·.unitProgress? id)).join := by
    intro t
    unfold unitProgress?
    cases t.stage? a <;> rfl
  rw [read, read, map_stage?_refresh _ fun _ => rfl]

section
variable (wf : t.WellFormed) {s : Stage} (hs : s ∈ t.stages)
include wf hs

theorem unitProgress?_of_stage (id : String) : t.unitProgress? s.action id = s.unitProgress? id := by
  rw [unitProgress?, wf.stage?_of_mem hs, Option.bind_some]

theorem unitProgress?_judge (p : Progress) (a : Action) (id : String) :
    (t.replace { s with progress := p }).unitProgress? a id = t.unitProgress? a id := by
  rw [unitProgress?, stage?_replace]
  by_cases ha : a = s.action
  · subst ha
    rw [if_pos rfl, wf.stage?_of_mem hs, unitProgress?_of_stage wf hs]
    rfl
  · rw [if_neg ha]
    rfl

theorem unitProgress?_setUnit {id : String} {p : Progress} (hp : s.unitProgress? id = some p)
    (q : Progress) (a : Action) (j : String) : (t.replace (s.setUnit id q)).unitProgress? a j =
      if a = s.action ∧ j = id then some q else t.unitProgress? a j := by
  rw [unitProgress?, stage?_replace, Stage.setUnit_action]
  by_cases ha : a = s.action
  · subst ha
    rw [if_pos rfl, wf.stage?_of_mem hs, Option.map_some, Option.bind_some]
    by_cases hj : j = id
    · subst hj
      rw [if_pos ⟨rfl, rfl⟩, Stage.unitProgress?_setUnit hp]
    · rw [if_neg fun h => hj h.2, Stage.unitProgress?_setUnit_ne s hj, unitProgress?_of_stage wf hs]
  · rw [if_neg ha, if_neg fun h => ha h.1]
    rfl

end

theorem unitProgress?_start (wf : t.WellFormed) {a : Action} {id : String}
    (h : t.start a id = .ok (some t')) : t.unitProgress? a id = some .new ∧
      ∀ b j, t'.unitProgress? b j = if b = a ∧ j = id then some .running else t.unitProgress? b j := by
  obtain ⟨s, hs, rfl, new, rfl⟩ := start_eq_some h
  exact ⟨(unitProgress?_of_stage wf hs id).trans new, unitProgress?_setUnit wf hs new .running⟩

section
variable {a : Action} {id : String}

theorem stage?_settled {s : Stage} (stage : t.stage? a = some s) (runs : s.unitProgress? id = some .running)
    (o : Outcome) (b : Action) :
    (t.finish a id o).1.stage? b = if b = a then some (s.setUnit id o.progress) else t.stage? b := by
  have settled : (s.finish id o).2 = true := by simp [Stage.finish, runs]
  have kept : (fun s : Stage => s.action == b) ∘ (fun s => if s.action = a then (s.finish id o).1 else s) =
      fun s => s.action == b := by
    funext s
    have same : (s.finish id o).1.action = s.action := by
      unfold Stage.finish
      split <;> rfl
    by_cases here : s.action = a <;> simp [here, same]
  have found : (t.finish a id o).1.stage? b =
      (t.stage? b).map fun s => if s.action = a then (s.finish id o).1 else s := by
    simp only [finish, stage, settled, if_true]
    rw [updateStage, stage?, List.find?_map, kept]
    rfl
  rw [found]
  by_cases here : b = a
  · rw [if_pos here, here, stage, Option.map_some, if_pos (mem_of_stage? stage).2, Stage.finish, if_pos runs]
  · rw [if_neg here]
    cases other : t.stage? b with
    | none => rfl
    | some s' => simp [(mem_of_stage? other).2, here]

theorem unitProgress?_settled (running : t.unitProgress? a id = some .running) (o : Outcome) (b : Action)
    (j : String) : (t.finish a id o).1.unitProgress? b j =
      if b = a ∧ j = id then some o.progress else t.unitProgress? b j := by
  obtain ⟨s, stage, runs⟩ := Option.bind_eq_some_iff.mp running
  unfold unitProgress?
  rw [stage?_settled stage runs]
  by_cases here : b = a
  · rw [if_pos here, here, stage, Option.bind_some, Option.bind_some]
    by_cases unit : j = id
    · rw [if_pos ⟨rfl, unit⟩, unit, Stage.unitProgress?_setUnit runs]
    · rw [if_neg fun both => unit both.2, Stage.unitProgress?_setUnit_ne s unit]
  · rw [if_neg here, if_neg fun both => here both.1]

theorem unitProgress?_finish (t : Task) (a : Action) (id : String) (o : Outcome) :
    ((t.finish a id o).2 = true ∧ t.unitProgress? a id = some .running ∧ ∀ b j,
      (t.finish a id o).1.unitProgress? b j =
        if b = a ∧ j = id then some o.progress else t.unitProgress? b j) ∨
    ((t.finish a id o).2 = false ∧ t.unitProgress? a id ≠ some .running ∧ (t.finish a id o).1 = t) := by
  by_cases running : t.unitProgress? a id = some .running
  · refine Or.inl ⟨?_, running, unitProgress?_settled running o⟩
    obtain ⟨s, stage, runs⟩ := Option.bind_eq_some_iff.mp running
    simp [finish, stage, Stage.finish, runs]
  · refine Or.inr ⟨?_, running, ?_⟩
    all_goals
      unfold unitProgress? at running
      cases stage : t.stage? a with
      | none => rw [finish, stage]
      | some s =>
        rw [stage, Option.bind_some] at running
        simp [finish, stage, Stage.finish, running]

end

end Task

/-! ## Marks of a request -/

def Receipt.outcome? : Receipt → Option Outcome
  | .finished o => some o
  | .running => none
  | .refused _ => none

def Request.marks (c : Cell) (t : Task) : Request → List Mark
  | .submit h receipt =>
    if h.cell = c then
      .submitted :: receipt.outcome?.toList.map fun o => .reported o (t.finish h.action h.unit o).2
    else []
  | .validate .. => []

/-- The requests are what happened to the units of the task at position `owner`. -/
def Unfolds (owner : Nat) (t : Task) (qs : List (Task × Request)) (t' : Task) : Prop :=
  ∀ a id, Passage (t.unitProgress? a id) (qs.flatMap fun q => q.2.marks ⟨owner, a, id⟩ q.1)
    (t'.unitProgress? a id)

namespace Unfolds

variable {owner : Nat} {t t' t'' : Task} {qs qs' : List (Task × Request)}

theorem append (h : Unfolds owner t qs t') (h' : Unfolds owner t' qs' t'') :
    Unfolds owner t (qs ++ qs') t'' := by
  intro a id
  rw [List.flatMap_append]
  exact (h a id).append (h' a id)

theorem cons {q : Task × Request} (head : Unfolds owner t [q] t') (rest : Unfolds owner t' qs t'') :
    Unfolds owner t (q :: qs) t'' :=
  head.append rest

theorem of_same (h : ∀ a id, t'.unitProgress? a id = t.unitProgress? a id) : Unfolds owner t [] t' := by
  intro a id
  rw [h]
  exact .nil _

theorem refresh (owner : Nat) (t : Task) : Unfolds owner t [] t.refresh :=
  of_same t.unitProgress?_refresh

theorem validate {u : Task} {i : Nat} {a : Action} {verdict : Verdict} :
    Unfolds owner t [(u, .validate i a verdict)] t :=
  fun _ _ => .nil _

theorem submit (wf : t.WellFormed) {a : Action} {id name : String}
    (started : t.start a id = .ok (some t')) {receipt : Receipt}
    (left : t'' = receipt.outcome?.elim t' fun o => (t'.finish a id o).1) :
    Unfolds owner t [(t', .submit ⟨⟨name, a, id⟩, owner⟩ receipt)] t'' := by
  obtain ⟨new, after⟩ := Task.unitProgress?_start wf started
  intro b j
  simp only [List.flatMap_cons, List.flatMap_nil, List.append_nil, Request.marks, Handle.cell,
    Cell.mk.injEq, true_and]
  by_cases here : a = b ∧ id = j
  · obtain ⟨rfl, rfl⟩ := here
    have running : t'.unitProgress? a id = some .running := by rw [after, if_pos ⟨rfl, rfl⟩]
    rw [new, if_pos ⟨rfl, rfl⟩, left]
    refine .cons .start ?_
    cases receipt.outcome? with
    | none =>
      rw [Option.elim_none, running]
      exact .nil _
    | some o =>
      rw [Option.elim_some]
      rcases t'.unitProgress?_finish a id o with ⟨counted, -, settled⟩ | ⟨-, idle, -⟩
      · rw [settled, if_pos ⟨rfl, rfl⟩, Option.toList_some, List.map_singleton, counted]
        exact .single (.settle o)
      · exact absurd running idle
  · have other : ¬(b = a ∧ j = id) := fun h => here ⟨h.1.symm, h.2.symm⟩
    have kept : t'.unitProgress? b j = t.unitProgress? b j := by rw [after, if_neg other]
    rw [if_neg here, ← kept, left]
    cases receipt.outcome? with
    | none => exact .nil _
    | some o =>
      rw [Option.elim_some]
      rcases t'.unitProgress?_finish a id o with ⟨-, -, settled⟩ | ⟨-, -, same⟩
      · rw [settled, if_neg other]
        exact .nil _
      · rw [same]
        exact .nil _

end Unfolds

namespace Round

variable {σ δ ν : Type}

theorem submit_unfolds [Dispatcher δ] (owner : Nat) (a : Action) {t : Task} (wf : t.WellFormed)
    (r : Round σ δ ν) (ids : List String) :
    Unfolds owner t (submitMoments owner a t r.dispatcher ids) (r.submit owner a t ids).1 := by
  fun_induction Round.submit owner a t r ids with
  | case1 t r => exact .of_same fun _ _ => rfl
  | case2 t r id ids f hs =>
    simp only [submitMoments, hs]
    exact .of_same fun _ _ => rfl
  | case3 t r id ids hs ih =>
    simp only [submitMoments, hs]
    exact ih wf
  | case4 t r id ids t' hs h d r' e hd =>
    rw [submitMoments_of_start hs hd]
    exact .submit wf hs rfl
  | case5 t r id ids t' hs h d r' admitted hd ih =>
    rw [submitMoments_of_start hs hd]
    exact .cons (.submit wf hs rfl) (ih (wf.start hs))
  | case6 t r id ids t' hs h d r' admitted o hd ih =>
    rw [submitMoments_of_start hs hd]
    exact .cons (.submit wf hs rfl) (ih ((wf.start hs).finish a id o))

variable [NameStore σ] [Dispatcher δ] [Validator ν]

theorem admitTask_unfolds {t : Task} (wf : t.WellFormed) (owner : Nat) (a : Action) (r : Round σ δ ν) :
    Unfolds owner t (admitMoments owner a t r) (r.admitTask owner a t).1 := by
  have wf' := wf.of_shape (Task.shape_refresh t)
  have refreshed := Unfolds.refresh owner t
  have judged : ∀ s ∈ t.refresh.stages, ∀ p,
      Unfolds owner t [] (t.refresh.replace { s with progress := p }).refresh := fun s hs p =>
    (refreshed.append (.of_same (Task.unitProgress?_judge wf' hs p))).append (.refresh owner _)
  have visit := admitTask_visit wf owner a r
  generalize r.admitTask owner a t = out, admitMoments owner a t r = ms at visit ⊢
  cases visit with
  | idle passed => exact refreshed
  | crash turn asked => exact refreshed.append .validate
  | judge turn compare empty asked =>
    rw [conclude_task]
    exact (judged _ turn.found _).append .validate
  | skip turn gated empty =>
    rw [conclude_task]
    exact judged _ turn.found _
  | @halt t' r' f s turn submitted =>
    have done := submit_unfolds owner a wf' r s.newIds
    rw [submitted] at done
    exact refreshed.append done
  | @work t' r' s turn _ submitted =>
    have done := submit_unfolds owner a wf' r s.newIds
    rw [submitted] at done
    rw [conclude_task, ← List.append_nil (submitMoments ..)]
    exact (refreshed.append done).append (.refresh owner t')

theorem tracks_unfolds : Tracks σ δ ν .any Unfolds where
  nil _ _ := .of_same fun _ _ => rfl
  append h h' := h.append h'
  refresh owner t := .refresh owner t
  admits owner a _ r wf _ := admitTask_unfolds wf owner a r

end Round

/-! ## Tasks seen on the way -/

/-- The task moves from what it is to how each request finds it, in this order, and to what is left. -/
def Passes (owner : Nat) (t : Task) (qs : List (Task × Request)) (t' : Task) : Prop :=
  (t :: qs.map (·.1) ++ [t']).Pairwise (Task.Moves .any owner)

namespace Passes

variable {owner : Nat} {t t' t'' : Task} {qs qs' : List (Task × Request)}

theorem of_moves (moves : t.Moves .any owner t') : Passes owner t [] t' :=
  List.pairwise_pair.mpr moves

theorem seen (moves : t.Moves .any owner t') (q : Request) : Passes owner t [(t', q)] t' := by
  refine List.pairwise_cons.mpr ⟨?_, List.pairwise_pair.mpr .refl⟩
  exact List.forall_mem_cons.mpr ⟨moves, List.forall_mem_singleton.mpr moves⟩

theorem append (h : Passes owner t qs t') (h' : Passes owner t' qs' t'') :
    Passes owner t (qs ++ qs') t'' := by
  obtain ⟨first, -, before⟩ := List.pairwise_append.mp h
  obtain ⟨after, later⟩ := List.pairwise_cons.mp h'
  unfold Passes
  rw [List.map_append, List.cons_append, List.append_assoc, ← List.cons_append]
  refine List.pairwise_append.mpr ⟨first, later, fun x hx y hy => ?_⟩
  exact (before x hx t' (List.mem_singleton_self t')).trans (after y hy)

theorem cons {q : Task × Request} (head : Passes owner t [q] t') (rest : Passes owner t' qs t'') :
    Passes owner t (q :: qs) t'' :=
  head.append rest

end Passes

namespace Round

variable {σ δ ν : Type}

theorem submit_passes [Dispatcher δ] (owner : Nat) (a : Action) {t : Task} (wf : t.WellFormed)
    (cleared : t.Cleared a) (present : a ∈ t.actions) (r : Round σ δ ν) (ids : List String) :
    Passes owner t (submitMoments owner a t r.dispatcher ids) (r.submit owner a t ids).1 := by
  fun_induction Round.submit owner a t r ids with
  | case1 t r => exact .of_moves .refl
  | case2 t r id ids f hs =>
    simp only [submitMoments, hs]
    exact .of_moves .refl
  | case3 t r id ids hs ih =>
    simp only [submitMoments, hs]
    exact ih wf cleared present
  | case4 t r id ids t' hs h d r' e hd =>
    rw [submitMoments_of_start hs hd]
    exact .seen (start_keeps wf cleared present hs).1 _
  | case5 t r id ids t' hs h d r' admitted hd ih =>
    obtain ⟨moves, wf', cleared', present'⟩ := start_keeps wf cleared present hs
    rw [submitMoments_of_start hs hd]
    exact .cons (.seen moves _) (ih wf' cleared' present')
  | case6 t r id ids t' hs h d r' admitted o hd ih =>
    obtain ⟨moves, wf', cleared', present'⟩ := start_keeps wf cleared present hs
    have settled : t'.Moves .any owner (t'.finish a id o).1 := Task.moves_finish wf' trivial
    have shape := settled.shape_eq wf'
    rw [submitMoments_of_start hs hd]
    have started : Passes owner t [_] (t'.finish a id o).1 :=
      (Passes.seen moves (.submit ⟨⟨t'.name, a, id⟩, owner⟩ (.finished o))).append (.of_moves settled)
    exact .cons started (ih (wf'.of_shape shape) (cleared'.finish wf' id o)
      (Task.actions_eq_of_shape shape ▸ present'))

variable [NameStore σ] [Dispatcher δ] [Validator ν]

theorem admitTask_passes {t : Task} (wf : t.WellFormed) (owner : Nat) (a : Action) (r : Round σ δ ν) :
    Passes owner t (admitMoments owner a t r) (r.admitTask owner a t).1 := by
  have refreshed : t.Moves .any owner t.refresh := .single .refresh
  have wf' := wf.of_shape (Task.shape_refresh t)
  have moves := (admitTask_moves (w := .any) wf owner a r fun _ _ => trivial).1
  have visit := admitTask_visit wf owner a r
  generalize r.admitTask owner a t = out, admitMoments owner a t r = ms at visit moves ⊢
  cases visit with
  | idle passed => exact .of_moves refreshed
  | crash turn asked => exact .seen refreshed _
  | @judge v passed s turn compare empty asked =>
    obtain rfl := turn.action_eq
    have answered : Conduct.any.answers (.validate owner s.action (.ofBool passed)) := trivial
    have judged : Task.Move .any owner t.refresh _ := .change turn.found
      (.judge turn.cleared empty (Stage.not_begun_of_accepts_empty turn.accepts empty)
        (.verdict compare answered))
    rw [conclude_task]
    exact (Passes.seen refreshed _).append (.of_moves ((Relation.ReflTransGen.single judged).tail .refresh))
  | skip turn gated empty => exact .of_moves moves
  | @halt t' r' f s turn submitted =>
    have passes := submit_passes owner a wf' turn.cleared turn.present r s.newIds
    rw [submitted] at passes
    exact (Passes.of_moves refreshed).append passes
  | @work t' r' s turn _ submitted =>
    have passes := submit_passes owner a wf' turn.cleared turn.present r s.newIds
    rw [submitted] at passes
    rw [conclude_task, ← List.append_nil (submitMoments ..)]
    exact ((Passes.of_moves refreshed).append passes).append (.of_moves (.single .refresh))

theorem tracks_passes : Tracks σ δ ν .any Passes where
  nil _ _ := .of_moves .refl
  append h h' := h.append h'
  refresh _ _ := .of_moves (.single .refresh)
  admits owner a _ r wf _ := admitTask_passes wf owner a r

end Round

/-! ## Chronicles -/

inductive Entry
  | asked (t : Task) (q : Request)
  | reported (h : Handle) (o : Outcome) (counted : Bool)

namespace Entry

def handle? : Entry → Option Handle
  | asked _ q => q.handle?
  | reported .. => none

def marks (c : Cell) : Entry → List Mark
  | asked t q => q.marks c t
  | reported h o counted => if h.cell = c then [.reported o counted] else []

end Entry

theorem Request.marks_of_ne {c : Cell} {q : Request} (h : q.owner ≠ c.owner) (t : Task) :
    q.marks c t = [] := by
  cases q with
  | submit g receipt => exact if_neg fun he => h (congrArg Cell.owner he)
  | validate i a verdict => rfl

theorem Request.marks_opens (c : Cell) (t : Task) (q : Request) :
    q.marks c t = [] ∨ (q.marks c t).head? = some .submitted := by
  cases q with
  | submit g receipt =>
    by_cases h : g.cell = c
    · exact Or.inr (by rw [marks, if_pos h]; rfl)
    · exact Or.inl (if_neg h)
  | validate i a verdict => exact Or.inl rfl

theorem opens_append {ms ns : List Mark} (hm : ms = [] ∨ ms.head? = some .submitted)
    (hn : ms ≠ [] ∨ ns = [] ∨ ns.head? = some .submitted) :
    ms ++ ns = [] ∨ (ms ++ ns).head? = some .submitted := by
  cases ms with
  | nil => exact hn.resolve_left fun ne => ne rfl
  | cons m ms => exact Or.inr (hm.resolve_left (List.cons_ne_nil m ms))

theorem marks_concerning (c : Cell) (qs : List (Task × Request)) :
    (concerning c.owner qs).flatMap (fun q => q.2.marks c q.1) = qs.flatMap fun q => q.2.marks c q.1 := by
  induction qs with
  | nil => rfl
  | cons q qs ih =>
    unfold concerning at ih ⊢
    by_cases h : q.2.owner = c.owner
    · rw [List.filter_cons, if_pos (beq_iff_eq.mpr h), List.flatMap_cons, List.flatMap_cons, ih]
    · rw [List.filter_cons, if_neg fun he => h (beq_iff_eq.mp he), List.flatMap_cons, ih,
        Request.marks_of_ne h, List.nil_append]

theorem Task.finish_passage (t : Task) {h : Handle} {c : Cell}
    (who : h.owner = c.owner) (o : Outcome) : Passage (t.unitProgress? c.action c.unit)
      ((Entry.reported h o (t.finish h.action h.unit o).2).marks c)
      ((t.finish h.action h.unit o).1.unitProgress? c.action c.unit) := by
  obtain ⟨owner, action, unit⟩ := c
  obtain rfl : h.owner = owner := who
  simp only [Entry.marks, Handle.cell, Cell.mk.injEq, true_and]
  by_cases here : h.action = action ∧ h.unit = unit
  · obtain ⟨rfl, rfl⟩ := here
    rw [if_pos ⟨rfl, rfl⟩]
    rcases t.unitProgress?_finish h.action h.unit o with ⟨yes, running, settled⟩ | ⟨no, idle, same⟩
    · rw [yes, running, settled, if_pos ⟨rfl, rfl⟩]
      exact .single (.settle o)
    · rw [no, same]
      exact .single (.late o idle)
  · rw [if_neg here]
    rcases t.unitProgress?_finish h.action h.unit o with ⟨-, -, settled⟩ | ⟨-, -, same⟩
    · rw [settled, if_neg fun he => here ⟨he.1.symm, he.2.symm⟩]
      exact .nil _
    · rw [same]
      exact .nil _

namespace Scheduler

variable {σ δ ν : Type}

def progressAt? (s : Scheduler σ δ ν) (c : Cell) : Option Progress :=
  s.tasks[c.owner]?.bind fun t => t.unitProgress? c.action c.unit

theorem progressAt?_of_unit {s : Scheduler σ δ ν} {i : Nat} {t : Task} (wf : t.WellFormed)
    (at_i : s.tasks[i]? = some t) {b : Stage} (hb : b ∈ t.stages) {u : WorkUnit} (hu : u ∈ b.units) :
    s.progressAt? ⟨i, b.action, u.id⟩ = some u.progress := by
  unfold progressAt?
  rw [at_i, Option.bind_some, Task.unitProgress?_of_stage wf hb]
  exact Stage.unitProgress?_of_mem (wf.stages b hb).nodup hu

theorem finish_passage (s : Scheduler σ δ ν) (h : Handle) (o : Outcome) (c : Cell) : Passage (s.progressAt? c)
      ((Entry.reported h o (s.finish h o).2).marks c) ((s.finish h o).1.progressAt? c) := by
  have after : (s.finish h o).1.tasks[c.owner]? =
      (fun t => if h.owner = c.owner then (t.finish h.action h.unit o).1 else t) <$> s.tasks[c.owner]? := by
    rw [finish_eq, List.getElem?_modify]
  have counted : (s.finish h o).2 = s.tasks[h.owner]?.any fun t => (t.finish h.action h.unit o).2 := by
    unfold Scheduler.finish
    cases s.tasks[h.owner]? <;> rfl
  unfold progressAt?
  rw [after, counted]
  by_cases who : h.owner = c.owner
  · rw [who]
    cases at_c : s.tasks[c.owner]? with
    | none =>
      rw [Entry.marks]
      by_cases here : h.cell = c
      · rw [if_pos here]
        exact .single (.late o nofun)
      · rw [if_neg here]
        exact .nil _
    | some t =>
      simp only [Option.map_eq_map, Option.map_some, Option.bind_some, Option.any_some, if_true]
      exact t.finish_passage who o
  · rw [Entry.marks, if_neg fun here => who (congrArg Cell.owner here)]
    simp only [if_neg who, Option.map_eq_map, Option.map_id']
    exact .nil _

section
variable [NameStore σ] [Dispatcher δ] [Validator ν]

/-- From one scheduler to another, with all that was asked for and reported on the way, in order. -/
inductive Chronicle (start : Scheduler σ δ ν) : List Entry → Scheduler σ δ ν → Prop
  | start : Chronicle start [] start
  | call {es : List Entry} {s : Scheduler σ δ ν} (before : Chronicle start es s) (c : Call) :
      Chronicle start (es ++ (asked 0 (s.moments c)).map fun q => .asked q.1 q.2) (s.perform c)
  | finish {es : List Entry} {s : Scheduler σ δ ν} (before : Chronicle start es s) {h : Handle}
      (given : h ∈ s.handles) (o : Outcome) :
      Chronicle start (es ++ [.reported h o (s.finish h o).2]) (s.finish h o).1
  | outside {es : List Entry} {s : Scheduler σ δ ν} (before : Chronicle start es s) (d : δ) (v : ν)
      (counts : RowCounts) : Chronicle start es { s with dispatcher := d, validator := v, counts }

theorem perform_passage (s : Scheduler σ δ ν) (wf : ∀ t ∈ s.tasks, t.WellFormed) (k : Call) (c : Cell) :
    Passage (s.progressAt? c) ((asked 0 (s.moments k)).flatMap fun q => q.2.marks c q.1)
      ((s.perform k).progressAt? c) := by
  rw [← marks_concerning]
  cases at_i : s.tasks[c.owner]? with
  | some t =>
    obtain ⟨t', at_i', unfolds⟩ :=
      perform_tracked Round.tracks_unfolds s wf k (fun _ _ => trivial) c.owner t at_i
    unfold progressAt?
    rw [at_i, at_i']
    rw [Nat.zero_add] at unfolds
    exact unfolds c.action c.unit
  | none =>
    have absent : ∀ s' : Scheduler σ δ ν, Evolves .any 0 s.tasks s'.tasks → s'.progressAt? c = none := by
      intro s' evolves
      unfold progressAt?
      rw [List.getElem?_eq_none_iff] at at_i
      rw [List.getElem?_eq_none_iff.mpr (evolves.length_eq ▸ at_i)]
      rfl
    rw [concerning_absent s wf k at_i, absent s (.refl ..),
      absent _ (perform_evolves s wf k fun _ _ => trivial).1]
    exact .nil _

namespace Chronicle

variable {start s : Scheduler σ δ ν} {es : List Entry}

theorem reaches (h : Chronicle start es s) : Reaches .any start s := by
  induction h with
  | start => exact .refl
  | call _ c ih => exact ih.tail (.call c fun _ _ => trivial)
  | finish _ given o ih => exact ih.tail (.settle given trivial)
  | outside _ d v counts ih => exact ih.tail (.outside d v counts)

theorem wellFormed (h : Chronicle start es s) (wf : ∀ t ∈ start.tasks, t.WellFormed) :
    ∀ t ∈ s.tasks, t.WellFormed :=
  (h.reaches.evolves wf).wellFormed wf

theorem handles_eq (h : Chronicle start es s) (wf : ∀ t ∈ start.tasks, t.WellFormed) :
    s.handles = start.handles ++ es.filterMap (·.handle?) := by
  induction h with
  | start => exact (List.append_nil _).symm
  | @call es s before c ih =>
    have wf' := before.wellFormed wf
    have given := (perform_exchange s wf' c).handles_eq
    have proper := (perform_evolves (w := .any) s wf' c fun _ _ => trivial).2
    have same : ((asked 0 (s.moments c)).map fun q => Entry.asked q.1 q.2).filterMap (·.handle?) =
        (s.moments c).filterMap (·.request.handle?) := by
      have requests := congrArg (List.filterMap Request.handle?) (asked_requests fun m hm => (proper m hm).2)
      rw [List.filterMap_map, List.filterMap_map] at requests
      rw [List.filterMap_map]
      exact requests
    rw [List.filterMap_append, same, ← List.append_assoc, ← ih]
    exact given
  | @finish es s _ h _ o ih =>
    rw [finish_eq, List.filterMap_append, ih]
    exact congrArg (start.handles ++ ·) (List.append_nil _).symm
  | outside _ d v counts ih => exact ih

theorem passage (h : Chronicle start es s) (wf : ∀ t ∈ start.tasks, t.WellFormed) (c : Cell) :
    Passage (start.progressAt? c) (es.flatMap (·.marks c)) (s.progressAt? c) := by
  induction h with
  | start => exact .nil _
  | @call es s before k ih =>
    rw [List.flatMap_append, List.flatMap_map]
    exact ih.append (perform_passage s (before.wellFormed wf) k c)
  | @finish es s before h _ o ih =>
    rw [List.flatMap_append, List.flatMap_singleton]
    exact ih.append (finish_passage s h o c)
  | outside _ d v counts ih => exact ih

theorem opens (h : Chronicle start es s) (wf : ∀ t ∈ start.tasks, t.WellFormed)
    (none_given : start.handles = []) (c : Cell) :
    es.flatMap (·.marks c) = [] ∨ (es.flatMap (·.marks c)).head? = some .submitted := by
  induction h with
  | start => exact Or.inl rfl
  | @call es s before k ih =>
    rw [List.flatMap_append, List.flatMap_map]
    refine opens_append ih (Or.inr ?_)
    generalize asked 0 (s.moments k) = qs
    induction qs with
    | nil => exact Or.inl rfl
    | cons q qs ihq =>
      rw [List.flatMap_cons]
      exact opens_append (Request.marks_opens c q.1 q.2) (Or.inr ihq)
  | @finish es s before h given o ih =>
    rw [List.flatMap_append, List.flatMap_singleton]
    refine opens_append ih ?_
    by_cases here : h.cell = c
    · -- the handle was given out, so its submission has left a mark before
      refine Or.inl fun empty => ?_
      have listed := before.handles_eq wf
      rw [none_given, List.nil_append] at listed
      obtain ⟨e, he, hh⟩ := List.mem_filterMap.mp (listed ▸ given)
      have silent := List.flatMap_eq_nil_iff.mp empty e he
      match e, hh with
      | .asked t (.submit g receipt), hh =>
        obtain rfl := Option.some.inj hh
        rw [Entry.marks, Request.marks, if_pos here] at silent
        cases silent
    · exact Or.inr (Or.inl (if_neg here))
  | outside _ d v counts ih => exact ih

theorem story (h : Chronicle start es s) (wf : ∀ t ∈ start.tasks, t.WellFormed)
    (none_given : start.handles = []) (c : Cell) :
    Story (start.progressAt? c) (es.flatMap (·.marks c)) (s.progressAt? c) :=
  (h.passage wf c).story (h.opens wf none_given c)

end Chronicle

end

/-- In any run units only step forward, each has its one story, and whatever is stored for stages
and tasks only rises: between any two times of the run, and within a call between any two requests
made for the same task. -/
theorem progress_only_forward [NameStore σ] [Dispatcher δ] [Validator ν] {tasks : List Task}
    (fresh : ∀ t ∈ tasks, t.Fresh) {plan : Plan} {gate : Gate} {log : FailoverLog σ} {d : δ} {v : ν}
    {es : List Entry} {s : Scheduler σ δ ν}
    (run : Chronicle (Scheduler.new plan tasks gate log d v) es s) :
    (s.handles = es.filterMap (·.handle?) ∧ ∀ c : Cell,
      Story ((Scheduler.new plan tasks gate log d v).progressAt? c) (es.flatMap (·.marks c))
        (s.progressAt? c)) ∧
    (∀ es' s', Chronicle s es' s' → List.Forall₂ Task.Advances s.tasks s'.tasks) ∧
    ∀ k, Exchange s.counts 0 s.outside (s.moments k) (s.perform k).outside ∧
      (asked 0 (s.moments k)).map (·.2) = (s.moments k).map (·.request) ∧
      ∀ i t, s.tasks[i]? = some t → ∃ t', (s.perform k).tasks[i]? = some t' ∧
        (t :: (concerning i (asked 0 (s.moments k))).map (·.1) ++ [t']).Pairwise Task.Advances := by
  have start := new_wellFormed fresh plan gate log d v
  have evolves := run.reaches.evolves start
  have wf := evolves.wellFormed start
  have lags := evolves.lags start (new_lags fresh plan gate log d v)
  refine ⟨⟨run.handles_eq start, run.story start rfl⟩, fun es' s' later => ?_, fun k => ⟨?_, ?_, ?_⟩⟩
  · exact (later.reaches.evolves wf).advances wf lags
  · exact perform_exchange s wf k
  · exact asked_requests fun m hm => ((perform_evolves (w := .any) s wf k fun _ _ => trivial).2 m hm).2
  · intro i t at_i
    obtain ⟨t', at_i', passes⟩ := perform_tracked Round.tracks_passes s wf k (fun _ _ => trivial) i t at_i
    rw [Nat.zero_add] at passes
    refine ⟨t', at_i', ?_⟩
    have mem := List.mem_of_getElem? at_i
    -- whatever is seen on the way has come of `t`, so that it lags as `t` does
    have reached : ∀ u ∈ t :: (concerning i (asked 0 (s.moments k))).map (·.1) ++ [t'],
        t.Moves .any i u := List.forall_mem_cons.mpr ⟨.refl, (List.pairwise_cons.mp passes).1⟩
    refine passes.imp_of_mem fun hu _ moves => ?_
    have lags_u := ((reached _ hu).advances (wf t mem) (lags t mem)).2
    exact (moves.advances ((reached _ hu).wellFormed (wf t mem)) lags_u).1

theorem oneTable_story :
    Story (some .new) [.submitted, .reported .succeeded true, .reported .failed false]
      ((((OneTable.start .hold).tick.1.finish (OneTable.unit "p=1") .succeeded).1.finish
        (OneTable.unit "p=1") .failed).1.progressAt? (OneTable.unit "p=1").cell) ∧
    List.Forall₂ Task.Advances (OneTable.start .hold).tick.1.tasks
      ((OneTable.start .hold).tick.1.finish (OneTable.unit "p=1") .succeeded).1.tasks := by
  have ticked : Chronicle (OneTable.start .hold) _ (OneTable.start .hold).tick.1 := .call .start .tick
  have finished := ticked.finish (h := OneTable.unit "p=1") (by decide) .succeeded
  have again := finished.finish (h := OneTable.unit "p=1") (by decide) .failed
  have rises := (progress_only_forward OneTable.tasks_fresh ticked).2.1
  refine ⟨(progress_only_forward OneTable.tasks_fresh again).1.2 (OneTable.unit "p=1").cell, ?_⟩
  exact rises _ _ (.finish .start (by decide) .succeeded)

end Scheduler

end TableMigration
