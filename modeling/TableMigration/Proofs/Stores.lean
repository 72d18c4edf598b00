import Mathlib.Data.List.TakeWhile
import TableMigration.Failover
import TableMigration.FileSystem.Tree
import TableMigration.Proofs.Lists

/-!
# What a store holds

What lines a text has before a line feed does not depend on what follows, and the lines after it do not
depend on what was before. From this all else about the names in a text follows: each line that was
ended is read for itself, and a name without line feed, and without blanks at its ends, reads back as
it was written. A store that only ever took names, each as a line of its own, therefore loads what
was appended to it, be it kept in memory or in a file.
-/

namespace TableMigration

/-- A name that stands on a line of its own and is not changed by trimming. -/
structure ProperName (name : String) : Prop where
  nonempty : name ≠ ""
  head : ∀ c, name.toList.head? = some c → Text.isBlank c = false
  last : ∀ c, name.toList.getLast? = some c → Text.isBlank c = false
  line : '\n' ∉ name.toList

theorem ProperName.of_solid {name : String} (nonempty : name ≠ "")
    (solid : name.toList.any Text.isBlank = false) : ProperName name where
  nonempty := nonempty
  head c h := by simpa using List.any_eq_false.mp solid c (List.mem_of_head? h)
  last c h := by simpa using List.any_eq_false.mp solid c (List.mem_of_getLast? h)
  line h := List.any_eq_false.mp solid _ h (by decide)

def asLines (names : List String) : String :=
  String.join (names.map (· ++ "\n"))

theorem asLines_cons (name : String) (names : List String) :
    asLines (name :: names) = name ++ "\n" ++ asLines names := by
  rw [← String.toList_inj]
  simp [asLines]

theorem asLines_append (names : List String) (name : String) :
    asLines (names ++ [name]) = asLines names ++ (name ++ "\n") := by
  rw [← String.toList_inj]
  simp [asLines]

namespace Text

theorem trimStart_eq_self {cs : List Char} (h : ∀ c, cs.head? = some c → isBlank c = false) :
    trimStart cs = cs := by
  cases cs with
  | nil => rfl
  | cons c cs => rw [trimStart, List.dropWhile_cons_of_neg (by rw [h c rfl]; decide)]

theorem trim_eq_self {name : String} (h : ProperName name) : trim name = name := by
  have back : ∀ c, name.toList.reverse.head? = some c → isBlank c = false := fun c hc =>
    h.last c (by rwa [List.head?_reverse] at hc)
  rw [trim, trimChars, trimStart_eq_self h.head, trimEnd, trimStart_eq_self back, List.reverse_reverse,
    String.ofList_toList]

theorem linesFrom_append {cs : List Char} (h : '\n' ∉ cs) (line rest : List Char) :
    linesFrom line (cs ++ rest) = linesFrom (cs.reverse ++ line) rest := by
  induction cs generalizing line with
  | nil => rfl
  | cons c cs ih =>
    rw [List.mem_cons, not_or] at h
    rw [List.cons_append, linesFrom, if_neg (Ne.symm h.1), ih h.2]
    simp

theorem linesFrom_break (line cs ds : List Char) :
    linesFrom line (cs ++ '\n' :: ds) = linesFrom line (cs ++ ['\n']) ++ linesFrom [] ds := by
  induction cs generalizing line with
  | nil => rfl
  | cons c cs ih =>
    rw [List.cons_append, List.cons_append, linesFrom, linesFrom]
    split
    · rw [ih]
      rfl
    · exact ih _

theorem trimChars_eq_nil_iff {cs : List Char} : trimChars cs = [] ↔ ∀ c ∈ cs, isBlank c = true := by
  unfold trimChars trimEnd trimStart
  rw [List.reverse_eq_nil_iff, List.dropWhile_eq_nil_iff]
  simp only [List.mem_reverse]
  constructor
  · intro blank
    rw [← List.dropWhile_eq_nil_iff]
    by_contra left
    have first := blank _ (List.head_mem left)
    rw [List.head_dropWhile_not isBlank left] at first
    cases first
  · exact fun blank c hc => blank c ((List.dropWhile_sublist _).subset hc)

theorem trimChars_append_blank {c : Char} (blank : isBlank c = true) (cs : List Char) :
    trimChars (cs ++ [c]) = trimChars cs := by
  by_cases all : ∀ c ∈ cs, isBlank c = true
  · rw [trimChars_eq_nil_iff.mpr all, trimChars_eq_nil_iff]
    exact List.forall_mem_append.mpr ⟨all, List.forall_mem_singleton.mpr blank⟩
  · have front : trimStart cs ≠ [] := fun h => all (List.dropWhile_eq_nil_iff.mp h)
    have shift : trimStart (cs ++ [c]) = trimStart cs ++ [c] := by
      unfold trimStart at front ⊢
      rw [List.dropWhile_append, if_neg (by simpa using front)]
    unfold trimChars
    rw [shift]
    unfold trimEnd
    rw [List.reverse_append, List.reverse_singleton, List.singleton_append]
    exact congrArg List.reverse (List.dropWhile_cons_of_pos blank)

/-- Whether the carriage return belongs to the line or to its end, trimming removes it. -/
theorem trimChars_dropReturn (line : List Char) :
    trimChars (dropReturn line).reverse = trimChars line.reverse := by
  unfold dropReturn
  split
  · rfl
  next c cs =>
    split
    next h => rw [List.reverse_cons, trimChars_append_blank (by rw [h]; decide)]
    next => rfl

end Text

/-! ## Names in a text -/

/-- What lines are recorded as: their texts without blanks at the ends, if anything is left. -/
def namesOf (lines : List (List Char)) : List String :=
  (lines.map fun line => String.ofList (Text.trimChars line)).filter (· ≠ "")

theorem recordedNames_eq_namesOf (text : String) :
    recordedNames text = namesOf (Text.lineChars text.toList) := by
  unfold recordedNames namesOf Text.lines
  rw [List.map_map]
  congr 2
  funext line
  simp [Text.trim]

theorem namesOf_append (lines lines' : List (List Char)) :
    namesOf (lines ++ lines') = namesOf lines ++ namesOf lines' := by
  simp [namesOf]

theorem namesOf_linesFrom_ended (line cs : List Char) :
    namesOf (Text.linesFrom line (cs ++ ['\n'])) = namesOf (Text.linesFrom line cs) := by
  induction cs generalizing line with
  | nil =>
    show namesOf [(Text.dropReturn line).reverse] = namesOf (if line = [] then [] else [line.reverse])
    split
    next h =>
      rw [h]
      rfl
    next =>
      unfold namesOf
      rw [List.map_singleton, List.map_singleton, Text.trimChars_dropReturn]
  | cons c cs ih =>
    rw [List.cons_append, Text.linesFrom, Text.linesFrom]
    split
    · rw [← List.singleton_append, namesOf_append, ih, ← namesOf_append]
      rfl
    · exact ih _

/-- The names before a line feed and those after it are read apart. All that is known about names in
a text comes from here. -/
theorem recordedNames_break (front back : String) :
    recordedNames (front ++ "\n" ++ back) = recordedNames front ++ recordedNames back := by
  have chars : (front ++ "\n" ++ back).toList = front.toList ++ '\n' :: back.toList := by simp
  simp only [recordedNames_eq_namesOf, Text.lineChars]
  rw [chars, Text.linesFrom_break, namesOf_append, namesOf_linesFrom_ended]

theorem recordedNames_ended (text : String) : recordedNames (text ++ "\n") = recordedNames text := by
  have h := recordedNames_break text ""
  rwa [String.append_empty, show recordedNames "" = [] from rfl, List.append_nil] at h

theorem recordedNames_asLines (names : List String) :
    recordedNames (asLines names) = names.flatMap recordedNames := by
  induction names with
  | nil => rfl
  | cons n names ih => rw [asLines_cons, recordedNames_break, ih, List.flatMap_cons]

theorem recordedNames_intercalate (names : List String) :
    recordedNames ("\n".intercalate names) = names.flatMap recordedNames := by
  induction names with
  | nil => rfl
  | cons n names ih =>
    cases names with
    | nil => simp
    | cons m names =>
      rw [String.intercalate_cons_cons, recordedNames_break, ih]
      rfl

theorem recordedNames_unbroken {text : String} (h : '\n' ∉ text.toList) :
    recordedNames text = if Text.trim text = "" then [] else [Text.trim text] := by
  by_cases none : text = ""
  · rw [none]
    rfl
  have ne : text.toList.reverse ≠ [] := by simpa using none
  have read := Text.linesFrom_append h [] []
  rw [List.append_nil, List.append_nil] at read
  rw [recordedNames_eq_namesOf, Text.lineChars, read, Text.linesFrom, if_neg ne, List.reverse_reverse]
  by_cases blank : Text.trim text = ""
  · rw [if_pos blank]
    exact List.filter_cons_of_neg (by simpa [Text.trim] using blank)
  · rw [if_neg blank]
    exact List.filter_cons_of_pos (by simpa [Text.trim] using blank)

theorem recordedNames_proper {name : String} (proper : ProperName name) :
    recordedNames name = [name] := by
  rw [recordedNames_unbroken proper.line, Text.trim_eq_self proper, if_neg proper.nonempty]

theorem flatMap_recordedNames {names : List String} (proper : ∀ n ∈ names, ProperName n) :
    names.flatMap recordedNames = names := by
  rw [List.flatMap, List.map_congr_left fun n hn => recordedNames_proper (proper n hn)]
  exact List.flatMap_singleton' names

/-! ## Files in memory -/

namespace Tree

theorem find?_put (tree : Tree) (key : List Component) (entry : TreeEntry) (k : List Component) :
    (tree.put key entry).find? k = if k = key then some entry else tree.find? k :=
  lookup_put key k entry tree.entries

theorem find?_addChild {key k : List Component} (ne : k ≠ key) (tree : Tree) (c : Component) :
    (tree.addChild key c).find? k = tree.find? k := by
  unfold addChild
  split
  · rw [find?_put, if_neg ne]
  · rfl

theorem find?_link {k : List Component} (ne : k ≠ [.here]) (path : List Component) (tree : Tree)
    (above : path.length ≤ k.length) : (tree.link path).find? k = tree.find? k := by
  induction path generalizing tree with
  | nil => rfl
  | cons c path ih =>
    have shorter : path.length < k.length := above
    have other : k ≠ parentKey path := by
      unfold parentKey
      split
      · exact ne
      · intro he
        rw [he, List.length_reverse] at shorter
        exact Nat.lt_irrefl _ shorter
    unfold link
    split
    · rfl
    · rw [find?_addChild other]
      split
      · rfl
      · rw [ih _ (Nat.le_of_lt shorter), find?_put, if_neg other]

theorem find?_addFile (tree : Tree) (p : Path) (content : ByteArray) :
    (tree.addFile p content).find? p.components = some (.file content) := by
  unfold addFile
  by_cases h : p.components = [.here]
  · rw [h]
    simp [link, find?_put]
  · rw [find?_link h _ _ (by simp), find?_put, if_pos rfl]

theorem rejectsAppends_link (path : List Component) (tree : Tree) :
    (tree.link path).rejectsAppends = tree.rejectsAppends := by
  have child : ∀ (tree : Tree) key c, (tree.addChild key c).rejectsAppends = tree.rejectsAppends := by
    intro tree key c
    unfold addChild
    split <;> rfl
  induction path generalizing tree with
  | nil => rfl
  | cons c path ih =>
    unfold link
    split
    · rfl
    · rw [child]
      split
      · rfl
      · rw [ih]
        rfl

end Tree

/-! ## Stores -/

namespace FileStore

structure HoldsText (store : FileStore Tree) (text : String) : Prop where
  accepts : store.files.rejectsAppends = false
  found : store.files.find? store.path.components = some (.file text.toUTF8)

theorem holdsText_addFile (path : Path) (text : String) :
    HoldsText ⟨Tree.empty.addFile path text.toUTF8, path⟩ text :=
  ⟨Tree.rejectsAppends_link .., Tree.find?_addFile ..⟩

namespace HoldsText

variable {store : FileStore Tree} {text : String}

theorem load (h : store.HoldsText text) : NameStore.load store = .ok (recordedNames text) := by
  show (if (store.files.find? store.path.components).isSome = true then
    (store.files.readText store.path).map recordedNames else .ok []) = _
  rw [Tree.readText, h.found]
  simp only [Option.isSome_some, if_true, Text.decode_toUTF8]
  rfl

theorem append (h : store.HoldsText text) (name : String) :
    (NameStore.append store name).1.HoldsText (text ++ (name ++ "\n")) := by
  suffices (store.files.appendLine store.path name).1.rejectsAppends = false ∧
      (store.files.appendLine store.path name).1.find? store.path.components = _ from ⟨this.1, this.2⟩
  rw [Tree.appendLine, h.accepts, h.found, if_neg (by simp)]
  exact ⟨h.accepts, by simp [Tree.find?_put]⟩

theorem foldl_append (h : store.HoldsText text) (added : List String) :
    (added.foldl (fun store n => (NameStore.append store n).1) store).HoldsText
      (text ++ asLines added) := by
  induction added generalizing store text with
  | nil =>
    rw [show asLines [] = "" from rfl, String.append_empty]
    exact h
  | cons n added ih =>
    have later := ih (h.append n)
    rwa [String.append_assoc, ← asLines_cons] at later

end HoldsText

end FileStore

def Holds : MemoryStore ⊕ FileStore Tree → List String → Prop
  | .inl store, names => store.lines = names
  | .inr store, names => store.files.rejectsAppends = false ∧
      store.files.find? store.path.components =
        if names = [] then none else some (.file (asLines names).toUTF8)

namespace Holds

variable {store : MemoryStore ⊕ FileStore Tree} {names : List String}

theorem holdsText {store : FileStore Tree} (h : Holds (.inr store) names) (ne : names ≠ []) :
    store.HoldsText (asLines names) :=
  ⟨h.1, h.2.trans (if_neg ne)⟩

theorem load (h : Holds store names) :
    NameStore.load store = .ok (names.flatMap recordedNames) := by
  cases store with
  | inl store =>
    obtain rfl : store.lines = names := h
    exact congrArg Except.ok (recordedNames_intercalate _)
  | inr store =>
    by_cases none : names = []
    · subst none
      show (if (store.files.find? store.path.components).isSome = true then
        (store.files.readText store.path).map recordedNames else .ok []) = _
      rw [h.2]
      rfl
    · exact (h.holdsText none).load.trans (congrArg Except.ok (recordedNames_asLines names))

theorem append (h : Holds store names) (name : String) :
    Holds (NameStore.append store name).1 (names ++ [name]) := by
  cases store with
  | inl store => exact congrArg (· ++ [name]) h
  | inr store =>
    by_cases none : names = []
    · subst none
      show (store.files.appendLine store.path name).1.rejectsAppends = false ∧
        (store.files.appendLine store.path name).1.find? store.path.components = _
      rw [Tree.appendLine, h.1, h.2, if_neg (by simp)]
      refine ⟨(Tree.rejectsAppends_link ..).trans h.1, ?_⟩
      simpa [asLines] using Tree.find?_addFile store.files store.path (name ++ "\n").toUTF8
    · obtain ⟨accepts, found⟩ := (h.holdsText none).append name
      refine ⟨accepts, found.trans ?_⟩
      rw [if_neg (by simp), asLines_append]

theorem foldl_append (h : Holds store names) (added : List String) :
    Holds (added.foldl (fun store n => (NameStore.append store n).1) store) (names ++ added) := by
  induction added generalizing store names with
  | nil => rwa [List.append_nil]
  | cons n added ih =>
    rw [List.foldl_cons, List.append_cons]
    exact ih (h.append n)

theorem mem_recorded_iff (h : Holds store names) (proper : ∀ n ∈ names, ProperName n) {n : String} :
    n ∈ (FailoverLog.openOn store).recorded ↔ n ∈ names := by
  simp [FailoverLog.openOn, h.load, flatMap_recordedNames proper]

theorem isFinished_iff (h : Holds store names) (proper : ∀ n ∈ names, ProperName n) {n : String} :
    (FailoverLog.openOn store).isFinished n = true ↔ n ∈ names := by
  rw [FailoverLog.isFinished, List.contains_iff_mem]
  exact h.mem_recorded_iff proper

end Holds

end TableMigration
