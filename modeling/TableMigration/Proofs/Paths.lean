import TableMigration.FileSystem.Disk
import TableMigration.FileSystem.Tree
import TableMigration.Proofs.Encoding
import TableMigration.Proofs.Stages
import TableMigration.Proofs.Stores

/-!
# Entries of directories

An entry of a directory is the directory with one more component, so its file name is the name it was
joined with, and two entries with one path have one name. A file system lists in order if each directory
gives its entries so, by strictly ascending names. A tree that was made by adding files and directories
does: a name comes to a directory as a component of a path, and is put in its place. So does a disk, which
sorts what it lists.
-/

namespace TableMigration

namespace Text

variable {α : Type} [DecidableEq α] {sep : α}

theorem pieces_ne_nil (sep : α) (cs : List α) : pieces sep cs ≠ [] := by
  cases cs with
  | nil => simp [pieces]
  | cons c cs =>
    unfold pieces
    split
    · simp
    · split <;> simp

theorem pieces_append (xs ys : List α) :
    pieces sep (xs ++ sep :: ys) = pieces sep xs ++ pieces sep ys := by
  induction xs with
  | nil => simp [pieces]
  | cons x xs ih =>
    rw [List.cons_append, pieces, pieces]
    by_cases hx : x = sep
    · rw [if_pos hx, if_pos hx, ih, List.cons_append]
    · rw [if_neg hx, if_neg hx, ih]
      cases h : pieces sep xs with
      | nil => exact absurd h (pieces_ne_nil sep xs)
      | cons p ps => rfl

theorem pieces_of_not_mem {xs : List α} (h : sep ∉ xs) : pieces sep xs = [xs] := by
  induction xs with
  | nil => rfl
  | cons x xs ih =>
    obtain ⟨hx, hxs⟩ := not_or.mp (mt List.mem_cons.mpr h)
    rw [pieces, if_neg (Ne.symm hx), ih hxs]

theorem not_mem_of_mem_pieces {cs p : List α} (h : p ∈ pieces sep cs) : sep ∉ p := by
  induction cs generalizing p with
  | nil => simp [List.mem_singleton.mp h]
  | cons c cs ih =>
    rw [pieces] at h
    split at h
    · obtain rfl | h := List.mem_cons.mp h
      · exact List.not_mem_nil
      · exact ih h
    next hc =>
      cases split : pieces sep cs with
      | nil => exact absurd split (pieces_ne_nil sep cs)
      | cons q qs =>
        rw [split] at h ih
        obtain rfl | h := List.mem_cons.mp h
        · rw [List.mem_cons, not_or]
          exact ⟨Ne.symm hc, ih (List.mem_cons_self ..)⟩
        · exact ih (List.mem_cons_of_mem _ h)

end Text

structure EntryName (n : RawText) : Prop where
  nonempty : n ≠ []
  not_here : n ≠ [Path.dot]
  not_up : n ≠ [Path.dot, Path.dot]
  no_slash : Path.slash ∉ n

instance (n : RawText) : Decidable (EntryName n) :=
  decidable_of_iff (n ≠ [] ∧ n ≠ [Path.dot] ∧ n ≠ [Path.dot, Path.dot] ∧ Path.slash ∉ n)
    ⟨fun ⟨a, b, c, d⟩ => ⟨a, b, c, d⟩, fun ⟨a, b, c, d⟩ => ⟨a, b, c, d⟩⟩

namespace Path

/-! ## Joined paths -/

/-- The components that the pieces of a path stand for, the first of which has a meaning of its own. -/
def ofPieces : List RawText → List Component
  | [] => []
  | first :: rest =>
    (if first = [] then [.root] else if first = [dot] then [.here] else (component? first).toList) ++
      rest.filterMap component?

theorem components_eq (p : Path) : p.components = if p.raw = [] then [] else ofPieces p.pieces := by
  unfold components
  split
  · rfl
  · cases p.pieces <;> rfl

theorem ofPieces_append {ps : List RawText} (ne : ps ≠ []) (rest : List RawText) :
    ofPieces (ps ++ rest) = ofPieces ps ++ rest.filterMap component? := by
  cases ps with
  | nil => exact absurd rfl ne
  | cons first ps => simp [ofPieces]

theorem component?_of_entry {n : RawText} (entry : EntryName n) : component? n = some (.name n) := by
  simp [component?, entry.nonempty, entry.not_here, entry.not_up]

theorem entry_of_component? {piece n : RawText} (no_slash : slash ∉ piece)
    (h : component? piece = some (.name n)) : EntryName n := by
  unfold component? at h
  split at h
  · cases h
  next hidden =>
    split at h
    · cases h
    next up =>
      cases h
      simp only [Bool.or_eq_true, decide_eq_true_eq, not_or] at hidden
      exact ⟨hidden.1, hidden.2, up, no_slash⟩

theorem components_join (p : Path) {n : RawText} (entry : EntryName n) :
    (p.join n).components = p.components ++ [.name n] := by
  have alone : Text.pieces slash n = [n] := Text.pieces_of_not_mem entry.no_slash
  have behind : ∀ cs : RawText, components ⟨cs ++ slash :: n⟩ =
      ofPieces (Text.pieces slash cs) ++ [.name n] := by
    intro cs
    have some_ : cs ++ slash :: n ≠ [] := List.append_ne_nil_of_right_ne_nil _ (List.cons_ne_nil _ _)
    rw [components_eq, if_neg some_, pieces, Text.pieces_append, alone,
      ofPieces_append (Text.pieces_ne_nil _ _)]
    simp [component?_of_entry entry]
  unfold join
  by_cases empty : p.raw = []
  · have own : ofPieces [n] = [.name n] := by
      simp [ofPieces, entry.nonempty, entry.not_here, component?_of_entry entry]
    rw [if_pos (by simp [empty]), empty, List.nil_append, components_eq p, if_pos empty, components_eq,
      if_neg entry.nonempty, pieces, alone, own, List.nil_append]
  · rw [components_eq p, if_neg empty]
    by_cases ends : p.raw.getLast? = some slash
    · obtain ⟨cs, raw⟩ := List.getLast?_eq_some_iff.mp ends
      have idle : ofPieces (Text.pieces slash (cs ++ [slash])) = ofPieces (Text.pieces slash cs) := by
        rw [Text.pieces_append, ofPieces_append (Text.pieces_ne_nil _ _)]
        simp [Text.pieces, component?]
      rw [if_pos (by simp [ends]), pieces, raw, idle, List.append_assoc, List.singleton_append, behind]
    · rw [if_neg (by simp [empty, ends]), behind, pieces]

theorem fileName?_join (p : Path) {n : RawText} (entry : EntryName n) : (p.join n).fileName? = some n := by
  rw [fileName?, components_join p entry, List.getLast?_concat]

theorem no_slash_of_mem_pieces {p : Path} {piece : RawText} (h : piece ∈ p.pieces) : slash ∉ piece :=
  Text.not_mem_of_mem_pieces h

theorem entry_of_mem_components {p : Path} {n : RawText} (h : .name n ∈ p.components) : EntryName n := by
  have no_slash : ∀ piece ∈ p.pieces, slash ∉ piece := fun _ => no_slash_of_mem_pieces
  rw [components_eq] at h
  split at h
  · cases h
  cases split : p.pieces with
  | nil => rw [split] at h; cases h
  | cons first rest =>
    rw [split] at h no_slash
    obtain ⟨first_slash, rest_slash⟩ := List.forall_mem_cons.mp no_slash
    obtain here | later := List.mem_append.mp h
    · split at here
      · simp at here
      · split at here
        · simp at here
        · exact entry_of_component? first_slash (Option.mem_toList.mp here)
    · obtain ⟨piece, hp, read⟩ := List.mem_filterMap.mp later
      exact entry_of_component? (rest_slash piece hp) read

end Path

/-! ## Listing in order -/

/-- A directory gives its entries as paths below it, by strictly ascending names. -/
def ListsInOrder {φ : Type} [FileSystem φ] (files : φ) : Prop :=
  ∀ (dir : Path) (entries : List Path), FileSystem.list files dir = .ok entries →
    ∃ names : List RawText, names.Pairwise (· < ·) ∧ (∀ n ∈ names, EntryName n) ∧ entries = names.map dir.join

namespace Tree

def Ascend (names : List String) : Prop :=
  names.Pairwise (· < ·) ∧ ∀ n ∈ names, EntryName n

def InOrder (tree : Tree) : Prop :=
  ∀ key names, tree.find? key = some (.directory names) → Ascend names

theorem nameText?_eq_some_iff {c : Component} {n : String} : nameText? c = some n ↔ c = .name n := by
  unfold nameText?
  split
  next m => rw [Text.read?_eq_some_iff, Component.name.injEq, eq_comm]
  next other =>
    refine ⟨fun h => (nomatch h), fun same => absurd same (other _)⟩

theorem InOrder.lists {tree : Tree} (h : tree.InOrder) : ListsInOrder tree := by
  intro dir entries listed
  change tree.list dir = .ok entries at listed
  unfold list at listed
  split at listed
  next names found =>
    obtain ⟨ascending, proper⟩ := h _ names found
    refine ⟨names.map Text.encode, List.pairwise_map.mpr (ascending.imp Text.encode_lt),
      List.forall_mem_map.mpr proper, ?_⟩
    rw [List.map_map]
    exact (Except.ok.inj listed).symm
  next => cases listed

theorem InOrder.put {tree : Tree} (h : tree.InOrder) {key : List Component} {entry : TreeEntry}
    (fine : ∀ names, entry = .directory names → Ascend names) :
    (tree.put key entry).InOrder := by
  intro k names found
  rw [find?_put] at found
  split at found
  · exact fine names (Option.some.inj found)
  · exact h k names found

theorem InOrder.put_empty {tree : Tree} (h : tree.InOrder) (key : List Component) :
    (tree.put key (.directory [])).InOrder :=
  h.put fun _ same => TreeEntry.directory.inj same ▸ ⟨List.Pairwise.nil, List.forall_mem_nil _⟩

theorem InOrder.addChild {tree : Tree} (h : tree.InOrder) (key : List Component) {c : Component}
    (proper : ∀ n, c = .name n → EntryName n) : (tree.addChild key c).InOrder := by
  unfold Tree.addChild
  split
  next names n found named =>
    refine h.put fun _ same => TreeEntry.directory.inj same ▸ ?_
    obtain ⟨ascending, entries⟩ := h key names found
    refine ⟨Ordered.pairwise_insertKey ascending, fun m hm => ?_⟩
    obtain rfl | hm := Ordered.mem_insertKey.mp hm
    · exact proper _ (nameText?_eq_some_iff.mp named)
    · exact entries m hm
  next => exact h

theorem InOrder.link {path : List Component} (proper : ∀ n, .name n ∈ path → EntryName n) {tree : Tree}
    (h : tree.InOrder) : (tree.link path).InOrder := by
  induction path generalizing tree with
  | nil => exact h
  | cons c above ih =>
    have rest : ∀ n, .name n ∈ above → EntryName n := fun n hn => proper n (List.mem_cons_of_mem _ hn)
    unfold Tree.link
    split
    · exact h
    · refine InOrder.addChild ?_ _ fun n same => proper n (same ▸ List.mem_cons_self ..)
      split
      · exact h
      · exact ih rest (h.put_empty _)

theorem inOrder_empty : Tree.empty.InOrder := by
  intro key names found
  rw [find?, Tree.empty, List.lookup_cons] at found
  split at found
  · exact TreeEntry.directory.inj (Option.some.inj found) ▸ ⟨List.Pairwise.nil, List.forall_mem_nil _⟩
  · cases found

theorem InOrder.addFile {tree : Tree} (h : tree.InOrder) (p : Path) (content : ByteArray) :
    (tree.addFile p content).InOrder :=
  .link (fun _ hn => p.entry_of_mem_components (List.mem_reverse.mp hn)) (h.put fun _ same => by cases same)

theorem InOrder.addDirectory {tree : Tree} (h : tree.InOrder) (p : Path) :
    (tree.addDirectory p).InOrder := by
  refine .link (fun _ hn => p.entry_of_mem_components (List.mem_reverse.mp hn)) ?_
  split
  · exact h
  · exact h.put_empty _

end Tree

def Disk.Named (d : Disk) : Prop :=
  ∀ e ∈ d.entries, ∀ n ∈ e.1, EntryName n

instance (d : Disk) : Decidable d.Named :=
  inferInstanceAs (Decidable (∀ e ∈ d.entries, ∀ n ∈ e.1, EntryName n))

theorem Disk.Named.lists {d : Disk} (h : d.Named) : ListsInOrder d := by
  intro dir entries listed
  change d.list dir = .ok entries at listed
  unfold Disk.list at listed
  split at listed
  next here found =>
    split at listed
    · cases listed
      refine ⟨d.namesBelow here, Ordered.pairwise_ofKeys _, ?_, rfl⟩
      intro n hn
      obtain ⟨e, he, own⟩ := List.mem_filterMap.mp (Ordered.mem_ofKeys.mp hn)
      split at own
      · exact h e he n (List.mem_of_getLast? own)
      · cases own
    · cases listed
  next => cases listed

end TableMigration
