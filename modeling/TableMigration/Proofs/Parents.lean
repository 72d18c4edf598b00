import Mathlib.Data.List.Induction
import TableMigration.Proofs.Paths

/-!
# Directories of paths

The parent of a path is cut out of its text, while a tree finds directories by their components. The two
agree: the parent has the components in front of the last one, and only the empty path and the root have
none. A lone component has the empty path as its parent, and is an entry of the working directory.
-/

namespace TableMigration

namespace Path

/-! ## Pieces that say nothing -/

theorem component?_ne_root {piece : RawText} {c : Component} (h : component? piece = some c) : c ≠ .root := by
  unfold component? at h
  split at h
  · cases h
  · split at h <;> cases h <;> exact Component.noConfusion

theorem ofPieces_cons (first : RawText) (rest : List RawText) :
    ofPieces (first :: rest) = ofPieces [first] ++ rest.filterMap component? :=
  ofPieces_append (List.cons_ne_nil first []) rest

theorem exists_pieces (p : Path) : ∃ first rest, p.pieces = first :: rest :=
  List.exists_cons_of_ne_nil (Text.pieces_ne_nil slash p.raw)

theorem ofPieces_first (first : RawText) : ∃ c, ofPieces [first] = [c] ∧ (c = .root ↔ first = []) := by
  by_cases root : first = []
  · exact ⟨.root, by simp [ofPieces, root], by simp [root]⟩
  by_cases here : first = [dot]
  · exact ⟨.here, by simp [ofPieces, here], by simp [here]⟩
  cases read : component? first with
  | none =>
    simp only [component?, root, here, decide_false, Bool.or_false, Bool.false_eq_true, if_false] at read
    split at read <;> cases read
  | some c => exact ⟨c, by simp [ofPieces, root, here, read], by simp [component?_ne_root read, root]⟩

theorem dropIdle_concat (ps : List RawText) (piece : RawText) :
    dropIdle (ps ++ [piece]) = if (component? piece).isNone then dropIdle ps else ps ++ [piece] := by
  unfold dropIdle
  rw [List.reverse_append, List.reverse_singleton, List.singleton_append, List.dropWhile_cons]
  split
  · rfl
  · simp

theorem dropIdle_cases (ps : List RawText) :
    (dropIdle ps = [] ∧ ps.filterMap component? = []) ∨
    ∃ before last c, dropIdle ps = before ++ [last] ∧ component? last = some c ∧
      ps.filterMap component? = before.filterMap component? ++ [c] := by
  induction ps using List.reverseRecOn with
  | nil => exact Or.inl ⟨rfl, rfl⟩
  | append_singleton ps piece ih =>
    rw [dropIdle_concat, List.filterMap_append]
    cases read : component? piece with
    | none => simpa [read] using ih
    | some c => exact Or.inr ⟨ps, piece, c, by simp, read, by simp [read]⟩

theorem mem_of_mem_dropIdle {ps : List RawText} {piece : RawText} (h : piece ∈ dropIdle ps) : piece ∈ ps :=
  List.mem_reverse.mp ((List.dropWhile_sublist _).subset (List.mem_reverse.mp h))

/-! ## Paths put together from pieces -/

theorem pieces_intercalate {ps : List RawText} (ne : ps ≠ []) (no_slash : ∀ piece ∈ ps, slash ∉ piece) :
    (⟨[slash].intercalate ps⟩ : Path).pieces = ps := by
  unfold pieces
  induction ps with
  | nil => exact absurd rfl ne
  | cons piece ps ih =>
    obtain ⟨own, rest⟩ := List.forall_mem_cons.mp no_slash
    cases ps with
    | nil => simp [Text.pieces_of_not_mem own]
    | cons next ps =>
      have tail := ih (List.cons_ne_nil next ps) rest
      dsimp only at tail ⊢
      rw [List.intercalate_cons_cons, List.append_assoc, List.singleton_append, Text.pieces_append,
        Text.pieces_of_not_mem own, tail]
      rfl

theorem components_intercalate {ps : List RawText} (ne : ps ≠ []) (some_ : ps ≠ [[]])
    (no_slash : ∀ piece ∈ ps, slash ∉ piece) :
    (⟨[slash].intercalate ps⟩ : Path).components = ofPieces ps := by
  have read := pieces_intercalate ne no_slash
  rw [components_eq, read, if_neg]
  intro empty
  rw [pieces, empty] at read
  exact some_ read.symm

theorem components_eq_nil_iff {p : Path} : p.components = [] ↔ p.raw = [] := by
  refine ⟨fun none_ => ?_, fun empty => by rw [components_eq, if_pos empty]⟩
  by_contra some_
  obtain ⟨first, rest, split⟩ := p.exists_pieces
  obtain ⟨c, start, -⟩ := ofPieces_first first
  rw [components_eq, if_neg some_, split, ofPieces_cons, start] at none_
  cases none_

/-! ## Parents -/

theorem parent?_eq {p : Path} {first : RawText} {rest : List RawText} (read : p.pieces = first :: rest) :
    p.parent? =
      if dropIdle rest = [] then if first = [] then none else some ⟨[]⟩
      else if dropIdle (dropIdle rest).dropLast = [] then if first = [] then some ⟨[slash]⟩ else some ⟨first⟩
      else some ⟨[slash].intercalate (first :: dropIdle (dropIdle rest).dropLast)⟩ := by
  unfold parent?
  rw [read]
  dsimp only
  split
  next idle => rw [if_pos idle]
  next kept =>
    rw [if_neg kept]
    split
    next idle => rw [if_pos idle]
    next kept => rw [if_neg kept]

theorem parent?_of_kept {p : Path} {first last : RawText} {rest before : List RawText}
    (read : p.pieces = first :: rest) (kept : dropIdle rest = before ++ [last]) :
    ∃ dir, p.parent? = some dir ∧ dir.components = ofPieces [first] ++ before.filterMap component? := by
  have no_slash : ∀ piece ∈ p.pieces, slash ∉ piece := fun _ => no_slash_of_mem_pieces
  rw [read] at no_slash
  obtain ⟨own, others⟩ := List.forall_mem_cons.mp no_slash
  rw [parent?_eq read, if_neg (by simp [kept]), kept, List.dropLast_concat]
  obtain ⟨idle, none_⟩ | ⟨before', last', c, kept', own', read'⟩ := dropIdle_cases before
  · rw [if_pos idle, none_, List.append_nil]
    by_cases root : first = []
    · rw [if_pos root, root]
      exact ⟨⟨[slash]⟩, rfl, rfl⟩
    · have alone := components_intercalate (List.cons_ne_nil first []) (by simpa using root) (by simpa using own)
      rw [List.intercalate_singleton] at alone
      exact ⟨⟨first⟩, if_neg root, alone⟩
  · have above : ∀ piece ∈ first :: dropIdle before, slash ∉ piece := by
      refine List.forall_mem_cons.mpr ⟨own, fun piece h => others piece (mem_of_mem_dropIdle ?_)⟩
      exact kept ▸ List.mem_append_left _ (mem_of_mem_dropIdle h)
    refine ⟨_, if_neg (by simp [kept']), ?_⟩
    rw [components_intercalate (List.cons_ne_nil _ _) (by simp [kept']) above, ofPieces_cons, kept', read',
      List.filterMap_append]
    simp [own']

/-- A path has a parent unless it is empty or the root, and has one component more than it. -/
theorem parent?_cases (p : Path) :
    (p.parent? = none ∧ (p.components = [] ∨ p.components = [.root])) ∨
    ∃ dir c, p.parent? = some dir ∧ c ≠ .root ∧ p.components = dir.components ++ [c] := by
  by_cases empty : p.raw = []
  · obtain ⟨raw⟩ := p
    obtain rfl : raw = [] := empty
    exact Or.inl ⟨rfl, Or.inl rfl⟩
  obtain ⟨first, rest, split⟩ := p.exists_pieces
  rw [components_eq, if_neg empty, split, ofPieces_cons]
  obtain ⟨idle, none_⟩ | ⟨before, last, c, kept, own, read⟩ := dropIdle_cases rest
  · obtain ⟨c, start, root_iff⟩ := ofPieces_first first
    rw [parent?_eq split, if_pos idle, none_, start, List.append_nil]
    by_cases root : first = []
    · exact Or.inl ⟨if_pos root, Or.inr (by rw [root_iff.mpr root])⟩
    · exact Or.inr ⟨⟨[]⟩, c, if_neg root, mt root_iff.mp root, rfl⟩
  · obtain ⟨dir, found, above⟩ := parent?_of_kept split kept
    exact Or.inr ⟨dir, c, found, component?_ne_root own, by rw [read, above, List.append_assoc]⟩

/-- The directory that has `p` as an entry, which is the working directory for a lone component. -/
def holder? (p : Path) : Option Path :=
  p.parent?.map fun dir => if dir.raw = [] then ⟨[dot]⟩ else dir

theorem holder?_cases (p : Path) :
    (p.holder? = none ∧ (p.components = [] ∨ p.components = [.root])) ∨
    ∃ dir c above, p.holder? = some dir ∧ c ≠ .root ∧ p.components.reverse = c :: above ∧
      dir.components = Tree.parentKey above := by
  unfold holder?
  obtain ⟨none_, bare⟩ | ⟨dir, c, found, c_root, last⟩ := p.parent?_cases
  · exact Or.inl ⟨by rw [none_, Option.map_none], bare⟩
  · right
    rw [found, Option.map_some, last, List.reverse_append]
    refine ⟨_, c, dir.components.reverse, rfl, c_root, rfl, ?_⟩
    unfold Tree.parentKey
    by_cases empty : dir.raw = []
    · rw [if_pos empty, if_pos (by simpa using components_eq_nil_iff.mpr empty)]
      rfl
    · rw [if_neg empty, if_neg (by simpa using mt components_eq_nil_iff.mp empty), List.reverse_reverse]

example : ["", "/", ".", "..", "a", "./a", "/a/", "a//b/."].map (fun text => (Path.mk text).holder?) =
    [none, none, some ⟨"."⟩, some ⟨"."⟩, some ⟨"."⟩, some ⟨"."⟩, some ⟨"/"⟩, some ⟨"a"⟩] := by
  decide +kernel

theorem exists_holder {p : Path} {c : Component} {above : List Component}
    (spelled : p.components.reverse = c :: above) (c_root : c ≠ .root) :
    ∃ dir, p.holder? = some dir ∧ dir.components = Tree.parentKey above := by
  obtain ⟨-, bare⟩ | ⟨dir, c', above', held, -, spelled', found⟩ := p.holder?_cases
  · obtain none_ | root := bare
    · simp [none_] at spelled
    · rw [root] at spelled
      exact absurd (List.cons.inj spelled).1.symm c_root
  · obtain ⟨-, rfl⟩ := List.cons.inj (spelled.symm.trans spelled')
    exact ⟨dir, held, found⟩

end Path

end TableMigration
