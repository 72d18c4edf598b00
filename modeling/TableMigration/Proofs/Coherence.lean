import TableMigration.Proofs.Parents

/-!
# Trees stay coherent

Whatever is asked of a tree in memory, each path in it has the directories above it beside it, and each
of them knows the name it holds if that is a text. A directory may be replaced by a file, and then has
entries below it that nothing lists; but it is never made again, since making one needs a key that is
free. While a path is being linked to the directories above it, it is the only one that is not linked
yet.
-/

namespace TableMigration

namespace Tree

variable {tree : Tree} {key k path : List Component} {entry : TreeEntry} {c : Component}
  {pending : List (List Component)}

/-! ## What is stored -/

def Stored (tree : Tree) (key : List Component) : Prop :=
  (tree.find? key).isSome = true

theorem stored_put_iff : (tree.put key entry).Stored k ↔ k = key ∨ tree.Stored k := by
  unfold Stored
  rw [find?_put]
  by_cases same : k = key
  · simp [same]
  · simp [same]

theorem addChild_cases (tree : Tree) (key : List Component) (c : Component) :
    (tree.addChild key c = tree ∧
      ∀ n children, c = .name (Text.encode n) → tree.find? key ≠ some (.directory children)) ∨
    ∃ n children, c = .name (Text.encode n) ∧ tree.find? key = some (.directory children) ∧
      tree.addChild key c = tree.put key (.directory (Ordered.insertKey n children)) := by
  unfold addChild
  split
  next children n found text => exact Or.inr ⟨n, children, nameText?_eq_some_iff.mp text, found, rfl⟩
  next other =>
    refine Or.inl ⟨rfl, fun n children name found => ?_⟩
    exact other children n found (nameText?_eq_some_iff.mpr name)

theorem stored_addChild_iff : (tree.addChild key c).Stored k ↔ tree.Stored k := by
  obtain ⟨same, -⟩ | ⟨n, children, -, found, put⟩ := tree.addChild_cases key c
  · rw [same]
  · rw [put, stored_put_iff, or_iff_right_of_imp]
    rintro rfl
    simp [Stored, found]

theorem mem_of_addChild {n : String} {children : List String}
    (found : (tree.addChild key (.name (Text.encode n))).find? key = some (.directory children)) :
    n ∈ children := by
  obtain ⟨same, none_⟩ | ⟨m, before, name, -, put⟩ := tree.addChild_cases key (.name (Text.encode n))
  · exact absurd (same ▸ found) (none_ n children rfl)
  · obtain rfl := Text.encode_injective (Component.name.inj name)
    rw [put, find?_put, if_pos rfl] at found
    cases found
    exact Ordered.mem_insertKey.mpr (Or.inl rfl)

theorem Stored.put (h : tree.Stored k) : (tree.put key entry).Stored k :=
  stored_put_iff.mpr (Or.inr h)

theorem Stored.link (h : tree.Stored k) (path : List Component) : (tree.link path).Stored k := by
  induction path generalizing tree with
  | nil => exact h
  | cons c above ih =>
    unfold Tree.link
    split
    · exact h
    · refine stored_addChild_iff.mpr ?_
      split
      · exact h
      · exact ih h.put

theorem Stored.addFile (h : tree.Stored k) (p : Path) (content : ByteArray) : (tree.addFile p content).Stored k :=
  h.put.link _

theorem Stored.addDirectory (h : tree.Stored k) (p : Path) : (tree.addDirectory p).Stored k := by
  refine Stored.link ?_ _
  split
  · exact h
  · exact h.put

/-- Every path but those in `pending` is linked to the directories above it. As where paths are linked,
the last component comes first in them. -/
structure Linked (tree : Tree) (pending : List (List Component)) : Prop where
  here : tree.Stored [.here]
  spelled : ∀ key, tree.Stored key → ∃ p : Path, p.components = key
  above : ∀ c above, c ≠ .root → tree.Stored (c :: above).reverse → c :: above ∉ pending →
    tree.Stored (parentKey above)
  named : ∀ n above children, tree.Stored (.name (Text.encode n) :: above).reverse →
    .name (Text.encode n) :: above ∉ pending → tree.find? (parentKey above) = some (.directory children) →
    n ∈ children
  below : ∀ key children, key ≠ [.here] → tree.find? key = some (.directory children) →
    ∀ n ∈ children, tree.Stored (key ++ [.name (Text.encode n)])

namespace Linked

theorem mono (h : tree.Linked pending) (path : List Component) : tree.Linked (path :: pending) where
  here := h.here
  spelled := h.spelled
  above c above c_root own wait := h.above c above c_root own (mt (List.mem_cons_of_mem _) wait)
  named n above children own wait := h.named n above children own (mt (List.mem_cons_of_mem _) wait)
  below := h.below

theorem settle (h : tree.Linked (path :: pending))
    (parent : ∀ c above, path = c :: above → c ≠ .root → tree.Stored (parentKey above))
    (name : ∀ n above children, path = .name (Text.encode n) :: above →
      tree.find? (parentKey above) = some (.directory children) → n ∈ children) :
    tree.Linked pending where
  here := h.here
  spelled := h.spelled
  above c above c_root own wait := by
    by_cases same : path = c :: above
    · exact parent c above same c_root
    · exact h.above c above c_root own (List.not_mem_cons_of_ne_of_not_mem (Ne.symm same) wait)
  named n above children own wait found := by
    by_cases same : path = .name (Text.encode n) :: above
    · exact name n above children same found
    · exact h.named n above children own (List.not_mem_cons_of_ne_of_not_mem (Ne.symm same) wait) found
  below := h.below

theorem put (h : tree.Linked pending) (entry : TreeEntry)
    (known : tree.Stored key ∨ key.reverse ∈ pending) (spelled : ∃ p : Path, p.components = key)
    (bare : ∀ children, entry = .directory children → children = [] ∧ ¬tree.Stored key) :
    (tree.put key entry).Linked pending := by
  have old : ∀ path, (tree.put key entry).Stored path.reverse → path ∉ pending → tree.Stored path.reverse := by
    intro path own wait
    obtain same | own := stored_put_iff.mp own
    · rw [← same, List.reverse_reverse] at known
      exact known.resolve_right wait
    · exact own
  constructor
  case here => exact h.here.put
  case spelled =>
    intro k own
    obtain rfl | own := stored_put_iff.mp own
    · exact spelled
    · exact h.spelled k own
  case above =>
    intro c above c_root own wait
    exact (h.above c above c_root (old _ own wait) wait).put
  case named =>
    intro n above children own wait found
    have own := old _ own wait
    rw [find?_put] at found
    split at found
    next same =>
      -- the parent was there before, so it is no directory that was just made
      have parent := h.above _ above Component.noConfusion own wait
      exact absurd (same ▸ parent) (bare children (Option.some.inj found)).2
    next => exact h.named n above children own wait found
  case below =>
    intro k children elsewhere found n hn
    rw [find?_put] at found
    split at found
    · rw [(bare children (Option.some.inj found)).1] at hn
      cases hn
    · exact (h.below k children elsewhere found n hn).put

theorem addChild {above : List Component} (h : tree.Linked pending) (own : tree.Stored (c :: above).reverse) :
    (tree.addChild (parentKey above) c).Linked pending := by
  obtain ⟨same, -⟩ | ⟨n, children, rfl, found, put⟩ := tree.addChild_cases (parentKey above) c
  · rwa [same]
  constructor
  case here => exact stored_addChild_iff.mpr h.here
  case spelled =>
    intro k hk
    exact h.spelled k (stored_addChild_iff.mp hk)
  case above =>
    intro c above c_root hk wait
    exact stored_addChild_iff.mpr (h.above c above c_root (stored_addChild_iff.mp hk) wait)
  case named =>
    intro m above' children' hk wait found'
    have hk := stored_addChild_iff.mp hk
    rw [put, find?_put] at found'
    split at found'
    next same =>
      cases found'
      exact Ordered.mem_insertKey.mpr (Or.inr (h.named m above' children hk wait (same ▸ found)))
    next => exact h.named m above' children' hk wait found'
  case below =>
    intro k children' elsewhere found' m hm
    rw [stored_addChild_iff]
    rw [put, find?_put] at found'
    split at found'
    next same =>
      cases found'
      obtain rfl | hm := Ordered.mem_insertKey.mp hm
      -- the new name is that of the path being linked, unless this is a lone name below the working directory
      · rw [parentKey] at same
        split at same
        · exact absurd same elsewhere
        · rwa [same, ← List.reverse_cons]
      · exact h.below k children elsewhere (same ▸ found) m hm
    next => exact h.below k children' elsewhere found' m hm

/-- Linking a path leaves it linked. A parent that is made on the way is linked first, and both are
pending until then. -/
theorem link (h : tree.Linked (path :: pending)) (own : tree.Stored path.reverse) :
    (tree.link path).Linked pending := by
  induction path generalizing tree pending with
  | nil => exact h.settle (fun _ _ same => by cases same) (fun _ _ _ same => by cases same)
  | cons c above ih =>
    have ready : ∀ tree : Tree, tree.Linked ((c :: above) :: pending) → tree.Stored (c :: above).reverse →
        tree.Stored (parentKey above) → (tree.addChild (parentKey above) c).Linked pending := by
      intro tree h own parent
      refine (h.addChild own).settle ?_ ?_
      · rintro _ _ ⟨⟩ -
        exact stored_addChild_iff.mpr parent
      · rintro n _ children ⟨⟩ found
        exact mem_of_addChild found
    unfold Tree.link
    split
    next top =>
      simp only [Bool.or_eq_true, Bool.and_eq_true, decide_eq_true_eq] at top
      refine h.settle ?_ ?_
      · rintro _ _ ⟨⟩ c_root
        obtain ⟨rfl, rfl⟩ := top.resolve_left c_root
        exact h.here
      · rintro n _ children ⟨⟩ -
        simp at top
    next linkable =>
      dsimp only
      split
      next parent => exact ready tree h own parent
      next new =>
        have c_root : c ≠ .root := by
          rintro rfl
          simp at linkable
        have some_ : above ≠ [] := by
          rintro rfl
          exact new h.here
        have key : parentKey above = above.reverse := if_neg some_
        obtain ⟨p, spelled⟩ := h.spelled _ own
        obtain ⟨dir, -, dir_spelled⟩ := Path.exists_holder (by rw [spelled, List.reverse_reverse]) c_root
        have made := (h.mono above).put (.directory []) (Or.inr (by simp [key]))
          ⟨dir, dir_spelled⟩ (fun _ same => ⟨TreeEntry.directory.inj same ▸ rfl, new⟩)
        have parent : (tree.put (parentKey above) (.directory [])).Stored (parentKey above) :=
          stored_put_iff.mpr (Or.inl rfl)
        exact ready _ (ih made (by rwa [← key])) (own.put.link above) (parent.link above)

theorem addFile (h : tree.Linked []) (p : Path) (content : ByteArray) : (tree.addFile p content).Linked [] := by
  have put := (h.mono p.components.reverse).put (.file content) (Or.inr List.mem_cons_self) ⟨p, rfl⟩
    (fun _ same => by cases same)
  exact put.link (stored_put_iff.mpr (Or.inl (List.reverse_reverse _)))

theorem addDirectory (h : tree.Linked []) (p : Path) : (tree.addDirectory p).Linked [] := by
  have waiting := h.mono p.components.reverse
  unfold Tree.addDirectory
  dsimp only
  split
  next there => exact waiting.link (by rwa [List.reverse_reverse])
  next new =>
    have put := waiting.put (.directory []) (Or.inr List.mem_cons_self) ⟨p, rfl⟩
      (fun _ same => ⟨(TreeEntry.directory.inj same).symm, new⟩)
    exact put.link (stored_put_iff.mpr (Or.inl (List.reverse_reverse _)))

end Linked

inductive Request
  | addFile (p : Path) (content : ByteArray)
  | addDirectory (p : Path)
  | appendLine (p : Path) (line : String)
  | rejectAppends (on : Bool)

def serve (tree : Tree) : Request → Tree
  | .addFile p content => tree.addFile p content
  | .addDirectory p => tree.addDirectory p
  | .appendLine p line => (tree.appendLine p line).1
  | .rejectAppends on => tree.rejectAppends on

def serveAll (tree : Tree) (requests : List Request) : Tree :=
  requests.foldl serve tree

theorem appendLine_cases (tree : Tree) (p : Path) (line : String) :
    (∃ e, tree.appendLine p line = (tree, .error e)) ∨
    ∃ content,
      (tree.Stored p.components ∧ tree.appendLine p line = (tree.put p.components (.file content), .ok ())) ∨
      tree.appendLine p line = (tree.addFile p content, .ok ()) := by
  unfold appendLine
  split
  · exact Or.inl ⟨_, rfl⟩
  · dsimp only
    split
    next found => exact Or.inr ⟨_, Or.inl ⟨by simp [Stored, found], rfl⟩⟩
    next => exact Or.inl ⟨_, rfl⟩
    next => exact Or.inr ⟨_, Or.inr rfl⟩

/-- What each kind of change keeps, every request keeps. -/
theorem serve_keeps (P : Tree → Prop) (kept : P tree) (switched : ∀ on, P (tree.rejectAppends on))
    (rewritten : ∀ (p : Path) content, tree.Stored p.components → P (tree.put p.components (.file content)))
    (file : ∀ p content, P (tree.addFile p content)) (directory : ∀ p, P (tree.addDirectory p))
    (r : Request) : P (tree.serve r) := by
  cases r with
  | addFile p content => exact file p content
  | addDirectory p => exact directory p
  | rejectAppends on => exact switched on
  | appendLine p line =>
    show P (tree.appendLine p line).1
    obtain ⟨e, failed⟩ | ⟨content, ⟨there, put⟩ | added⟩ := tree.appendLine_cases p line
    · rwa [failed]
    · rw [put]
      exact rewritten p content there
    · rw [added]
      exact file p content

theorem Stored.serve (h : tree.Stored k) (r : Request) : (tree.serve r).Stored k := by
  refine serve_keeps (·.Stored k) h (fun _ => h) ?_ h.addFile h.addDirectory r
  intro p content _
  exact h.put

theorem Linked.serve (h : tree.Linked []) (r : Request) : (tree.serve r).Linked [] := by
  refine serve_keeps (·.Linked []) h (fun _ => ⟨h.here, h.spelled, h.above, h.named, h.below⟩) ?_
    h.addFile h.addDirectory r
  intro p content there
  exact h.put _ (Or.inl there) ⟨p, rfl⟩ fun _ same => by cases same

theorem InOrder.serve (h : tree.InOrder) (r : Request) : (tree.serve r).InOrder := by
  refine serve_keeps InOrder h (fun _ => h) ?_ h.addFile h.addDirectory r
  intro p content _
  exact h.put fun _ same => by cases same

end Tree

/-! ## A name that is no text -/

namespace Unlisted

def path : Path :=
  ⟨Text.encode "d/" ++ 0xFF :: Text.encode ".q"⟩

def tree : Tree :=
  Tree.empty.serveAll [.addFile path .empty]

end Unlisted

/-! ## A file in place of a directory -/

namespace Displaced

/-- A file takes the place of the directory `in/db`, which has another file below it. -/
def requests : List Tree.Request :=
  [.addFile ⟨"in/db/t/a.q"⟩ .empty, .appendLine ⟨"./../log"⟩ "1", .addFile ⟨"in//db"⟩ .empty,
    .appendLine ⟨"in"⟩ "2", .rejectAppends true, .appendLine ⟨"in/db"⟩ "3"]

def tree : Tree :=
  Tree.empty.serveAll requests

end Displaced

end TableMigration
