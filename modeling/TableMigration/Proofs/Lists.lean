import Mathlib.Data.List.Forall2
import Mathlib.Data.List.Induction

/-!
# Lists, and results that may fail

What is needed of them here and not said in a library: when a computation succeeds that goes through a
list, and which element of a list decides a search.
-/

namespace TableMigration

/-! ## Results -/

section
variable {ε ε' α β : Type}

theorem bind_eq_ok {x : Except ε α} {f : α → Except ε β} {b : β} (h : x >>= f = .ok b) :
    ∃ a, x = .ok a ∧ f a = .ok b := by
  cases x with
  | error e => cases h
  | ok a => exact ⟨a, rfl, h⟩

theorem map_eq_ok {x : Except ε α} {f : α → β} {b : β} (h : x.map f = .ok b) : ∃ a, x = .ok a ∧ f a = b := by
  cases x with
  | error e => cases h
  | ok a => exact ⟨a, rfl, Except.ok.inj h⟩

theorem mapError_eq_ok {x : Except ε α} {f : ε → ε'} {a : α} (h : x.mapError f = .ok a) : x = .ok a := by
  cases x with
  | error e => cases h
  | ok a => exact congrArg Except.ok (Except.ok.inj h)

theorem ok_of_toOption_map {x : Except ε α} {g : α → β} {b : β} (h : x.toOption.map g = some b) :
    ∃ a, x = .ok a ∧ g a = b := by
  cases x with
  | error e => cases h
  | ok a => exact ⟨a, rfl, Option.some.inj h⟩

end

/-! ## Results for each element of a list -/

section
variable {ε ε' α β γ : Type} {f : α → Except ε β} {xs : List α} {ys : List β}

theorem mapM_eq_ok_iff : xs.mapM f = .ok ys ↔ List.Forall₂ (fun a b => f a = .ok b) xs ys := by
  constructor
  · intro h
    induction xs generalizing ys with
    | nil =>
      cases h
      exact .nil
    | cons x xs ih =>
      rw [List.mapM_cons] at h
      obtain ⟨y, first, h⟩ := bind_eq_ok h
      obtain ⟨ys, rest, h⟩ := bind_eq_ok h
      cases h
      exact .cons first (ih rest)
  · intro each
    induction each with
    | nil => rfl
    | cons first _ ih =>
      rw [List.mapM_cons, first, ih]
      rfl

theorem mapM_of_forall {g : α → β} (h : ∀ a ∈ xs, f a = .ok (g a)) : xs.mapM f = .ok (xs.map g) := by
  rw [mapM_eq_ok_iff, List.forall₂_map_right_iff]
  exact List.forall₂_same.mpr h

theorem mapM_of_first_error {g : α → β} {pre post : List α} {x : α} {e : ε}
    (before : ∀ y ∈ pre, f y = .ok (g y)) (here : f x = .error e) :
    (pre ++ x :: post).mapM f = .error e := by
  rw [List.mapM_append, mapM_of_forall before, List.mapM_cons, here]
  rfl

theorem map_of_mapM {g : β → α} (back : ∀ a b, f a = .ok b → g b = a) (h : xs.mapM f = .ok ys) :
    ys.map g = xs := by
  have each := mapM_eq_ok_iff.mp h
  clear h
  induction each with
  | nil => rfl
  | cons first _ ih => exact congrArg₂ List.cons (back _ _ first) ih

theorem mapM_map (f : α → Except ε β) (g : β → γ) (xs : List α) :
    xs.mapM (fun a => (f a).map g) = (xs.mapM f).map (List.map g) := by
  induction xs with
  | nil => rfl
  | cons x xs ih =>
    rw [List.mapM_cons, List.mapM_cons, ih]
    cases f x with
    | error e => rfl
    | ok b => cases xs.mapM f <;> rfl

theorem mapM_mapError (f : α → Except ε β) (g : ε → ε') (xs : List α) :
    xs.mapM (fun a => (f a).mapError g) = (xs.mapM f).mapError g := by
  induction xs with
  | nil => rfl
  | cons x xs ih =>
    rw [List.mapM_cons, List.mapM_cons, ih]
    cases f x with
    | error e => rfl
    | ok b => cases xs.mapM f <;> rfl

theorem mapM_flatten_eq_ok_iff {g : β → Except ε γ} {h : α → Except ε (List β)} {zs : List γ} :
    (xs.mapM fun a => h a >>= List.mapM g).map List.flatten = .ok zs ↔
      ∃ groups, xs.mapM h = .ok groups ∧ groups.flatten.mapM g = .ok zs := by
  induction xs generalizing zs with
  | nil =>
    refine ⟨fun made => ⟨[], rfl, made⟩, fun ⟨groups, listed, made⟩ => ?_⟩
    cases listed
    exact made
  | cons x xs ih =>
    constructor
    · intro all
      obtain ⟨groups, made, rfl⟩ := map_eq_ok all
      rw [List.mapM_cons] at made
      obtain ⟨group, first, made⟩ := bind_eq_ok made
      obtain ⟨rest, later, made⟩ := bind_eq_ok made
      cases made
      obtain ⟨ys, read, first⟩ := bind_eq_ok first
      obtain ⟨groups, all, flat⟩ := ih.mp (congrArg (Except.map List.flatten) later)
      refine ⟨ys :: groups, by rw [List.mapM_cons, read, all]; rfl, ?_⟩
      rw [List.flatten_cons, List.mapM_append, first, flat]
      rfl
    · rintro ⟨groups, read, made⟩
      rw [List.mapM_cons] at read
      obtain ⟨ys, first, read⟩ := bind_eq_ok read
      obtain ⟨groups, later, read⟩ := bind_eq_ok read
      cases read
      rw [List.flatten_cons, List.mapM_append] at made
      obtain ⟨group, each, made⟩ := bind_eq_ok made
      obtain ⟨rest, others, made⟩ := bind_eq_ok made
      cases made
      obtain ⟨all, read, rfl⟩ := map_eq_ok (ih.mpr ⟨groups, later, others⟩)
      have first : h x >>= List.mapM g = .ok group := by rw [first]; exact each
      rw [List.mapM_cons, first, read]
      rfl

theorem mapM_filter {p : α → Bool} {q : β → Bool} (same : ∀ a b, f a = .ok b → q b = p a)
    (h : xs.mapM f = .ok ys) : (xs.filter p).mapM f = .ok (ys.filter q) := by
  rw [mapM_eq_ok_iff] at h ⊢
  induction h with
  | nil => exact .nil
  | @cons x y xs ys first _ ih =>
    by_cases keep : p x = true
    · rw [List.filter_cons_of_pos keep, List.filter_cons_of_pos ((same x y first).trans keep)]
      exact .cons first ih
    · rwa [List.filter_cons_of_neg keep, List.filter_cons_of_neg (same x y first ▸ keep)]

end

/-! ## Related lists -/

section
variable {α β γ : Type}

theorem exists_related_of_mem {R : α → β → Prop} {xs : List α} {ys : List β} (h : List.Forall₂ R xs ys)
    {y : β} (hy : y ∈ ys) : ∃ x ∈ xs, R x y := by
  induction h with
  | nil => cases hy
  | @cons x _ xs _ head _ ih =>
    obtain rfl | later := List.mem_cons.mp hy
    · exact ⟨x, List.mem_cons_self, head⟩
    · obtain ⟨x', hx', related⟩ := ih later
      exact ⟨x', List.mem_cons_of_mem x hx', related⟩

theorem exists_of_map_eq {f : α → γ} {g : β → γ} {xs : List α} {ys : List β} (same : xs.map f = ys.map g)
    {i : Nat} {x : α} (at_i : xs[i]? = some x) : ∃ y, ys[i]? = some y ∧ g y = f x := by
  rw [← Option.map_eq_some_iff, ← List.getElem?_map, ← same, List.getElem?_map, at_i, Option.map_some]

theorem flatMap_filter {f : α → List β} {p : α → Bool} {q : β → Bool} (same : ∀ a, ∀ b ∈ f a, q b = p a)
    (xs : List α) : (xs.filter p).flatMap f = (xs.flatMap f).filter q := by
  induction xs with
  | nil => rfl
  | cons x xs ih =>
    rw [List.flatMap_cons, List.filter_append]
    by_cases keep : p x = true
    · rw [List.filter_cons_of_pos keep, List.flatMap_cons, ih,
        List.filter_eq_self.mpr fun b hb => (same x b hb).trans keep]
    · have none : (f x).filter q = [] := by
        apply List.filter_eq_nil_iff.mpr
        intro b hb
        rwa [same x b hb]
      rw [List.filter_cons_of_neg keep, ih, none, List.nil_append]

/-! ## Which element decides -/

theorem forall_or_first (P : α → Prop) (xs : List α) : (∀ x ∈ xs, P x) ∨
    ∃ pre x post, xs = pre ++ x :: post ∧ (∀ y ∈ pre, P y) ∧ ¬P x := by
  induction xs with
  | nil => exact Or.inl (List.forall_mem_nil _)
  | cons x xs ih =>
    by_cases hx : P x
    · rcases ih with all | ⟨pre, y, post, rfl, hpre, hy⟩
      · exact Or.inl (List.forall_mem_cons.mpr ⟨hx, all⟩)
      · exact Or.inr ⟨x :: pre, y, post, rfl, List.forall_mem_cons.mpr ⟨hx, hpre⟩, hy⟩
    · exact Or.inr ⟨[], x, xs, rfl, List.forall_mem_nil _, hx⟩

theorem findSome?_of_only {f : α → Option β} {x : α} {l : List α} (hx : x ∈ l)
    (only : ∀ y ∈ l, y = x ∨ f y = none) : l.findSome? f = f x := by
  cases given : f x with
  | none =>
    refine List.findSome?_eq_none_iff.mpr fun y hy => ?_
    obtain rfl | none := only y hy
    · exact given
    · exact none
  | some b =>
    induction l with
    | nil => cases hx
    | cons y l ih =>
      rw [List.findSome?_cons]
      obtain rfl | none := only y List.mem_cons_self
      · rw [given]
      · have later : x ∈ l := (List.mem_cons.mp hx).resolve_left fun same => by
          rw [same, none] at given
          cases given
        rw [none]
        exact ih later fun z hz => only z (List.mem_cons_of_mem y hz)

theorem last_of_findSome? {l : List α} {f : α → Option β} {b : β} (h : l.reverse.findSome? f = some b) :
    ∃ (i : Nat) (x : α), l[i]? = some x ∧ f x = some b ∧ ∀ k > i, ∀ y, l[k]? = some y → f y = none := by
  obtain ⟨later, x, earlier, split, given, none⟩ := List.findSome?_eq_some_iff.mp h
  obtain rfl : l = earlier.reverse ++ x :: later.reverse := by
    simpa using congrArg List.reverse split
  refine ⟨earlier.reverse.length, x, by simp, given, fun k after y at_k => ?_⟩
  obtain ⟨j, rfl⟩ := Nat.exists_eq_add_of_lt after
  rw [Nat.add_assoc, List.getElem?_append_right (Nat.le_add_right ..), Nat.add_sub_cancel_left,
    List.getElem?_cons_succ] at at_k
  exact none y (List.mem_reverse.mp (List.mem_of_getElem? at_k))

theorem lookup_put [DecidableEq α] [BEq α] [LawfulBEq α] (key k : α) (b : β) (entries : List (α × β)) :
    ((key, b) :: entries.filter (·.1 ≠ key)).lookup k = if k = key then some b else entries.lookup k := by
  have rest : k ≠ key → (entries.filter (·.1 ≠ key)).lookup k = entries.lookup k := by
    intro ne
    induction entries with
    | nil => rfl
    | cons e es ih =>
      by_cases he : e.1 = key
      · have other : (k == e.1) = false := beq_eq_false_iff_ne.mpr (he ▸ ne)
        rw [List.filter_cons_of_neg (by simpa using he), ih, List.lookup_cons, other]
      · rw [List.filter_cons_of_pos (by simpa using he), List.lookup_cons, List.lookup_cons, ih]
  by_cases h : k = key
  · rw [if_pos h, h, List.lookup_cons_self]
  · have other : (k == key) = false := beq_eq_false_iff_ne.mpr h
    rw [if_neg h, List.lookup_cons, other]
    exact rest h

end

end TableMigration
