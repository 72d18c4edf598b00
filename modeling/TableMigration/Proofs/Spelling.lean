import TableMigration.Proofs.MappedTables
import TableMigration.Proofs.MappingGrammar

/-!
# The spelling of mapped tables

A mapping lowers the case of a database and of a table each for itself, but is asked for a table by its whole
name in lower case. The one letter whose lower case depends on others is the sigma, which has a form of its
own at the end of a word; and a dot does not end a word. So the two agree, and a table is found under the
spelling that the mapping gives it, except where a sigma stands at the dot: where it is the last letter of the
database and the table goes on with letters, or where it alone comes first in the table.
-/

namespace TableMigration

namespace Text

/-! ## Lower case in a context -/

theorem meetsCased_append (xs ys : List Char) :
    meetsCased (xs ++ ys) = if xs.all isCaseIgnorable then meetsCased ys else meetsCased xs := by
  induction xs with
  | nil => rfl
  | cons x xs ih =>
    by_cases ignorable : isCaseIgnorable x = true
    · have skip : ∀ zs, meetsCased (x :: zs) = meetsCased zs := by
        intro zs
        unfold meetsCased
        rw [List.dropWhile_cons_of_pos ignorable]
      rw [List.cons_append, skip, skip, ih, List.all_cons, ignorable, Bool.true_and]
    · simp [meetsCased, ignorable]

theorem meetsCased_eq_false {xs : List Char} (h : xs.all isCaseIgnorable = true) :
    meetsCased xs = false := by
  have drop : xs.dropWhile isCaseIgnorable = [] := List.dropWhile_eq_nil_iff.mpr (List.all_eq_true.mp h)
  unfold meetsCased
  rw [drop]

theorem meetsCased_dot (xs : List Char) : meetsCased ('.' :: xs) = meetsCased xs := by
  have ignorable : isCaseIgnorable '.' = true := by decide
  unfold meetsCased
  rw [List.dropWhile_cons_of_pos ignorable]

theorem lowerSigma_eq_iff {before after before' after' : List Char} :
    lowerSigma before after = lowerSigma before' after' ↔
      (meetsCased before && !meetsCased after) = (meetsCased before' && !meetsCased after') := by
  unfold lowerSigma
  cases meetsCased before && !meetsCased after <;> cases meetsCased before' && !meetsCased after' <;> simp

/-- The lower case of a text between `before`, nearest character first, and `after`. -/
def lowerWithin (before after : List Char) : List Char → List Char
  | [] => []
  | c :: cs =>
    (if c = 'Σ' then [lowerSigma before (cs ++ after)] else lowerChar c) ++ lowerWithin (c :: before) after cs

theorem lowerFrom_eq (before cs : List Char) : lowerFrom before cs = lowerWithin before [] cs := by
  induction cs generalizing before with
  | nil => rfl
  | cons c cs ih => rw [lowerFrom, lowerWithin, ih, List.append_nil]

theorem lowerWithin_append (before after xs ys : List Char) : lowerWithin before after (xs ++ ys) =
    lowerWithin before (ys ++ after) xs ++ lowerWithin (xs.reverse ++ before) after ys := by
  induction xs generalizing before with
  | nil => rfl
  | cons x xs ih =>
    simp only [List.cons_append, lowerWithin, ih, List.append_assoc, List.reverse_cons, List.nil_append]

theorem length_lowerWithin (before after before' after' cs : List Char) :
    (lowerWithin before after cs).length = (lowerWithin before' after' cs).length := by
  induction cs generalizing before before' with
  | nil => rfl
  | cons c cs ih =>
    rw [lowerWithin, lowerWithin, List.length_append, List.length_append, ih (c :: before) (c :: before')]
    by_cases sigma : c = 'Σ'
    · simp [sigma]
    · simp [sigma]

theorem lowerWithin_eq_iff {before after before' after' cs : List Char} :
    lowerWithin before after cs = lowerWithin before' after' cs ↔ ∀ xs ys, cs = xs ++ 'Σ' :: ys →
      lowerSigma (xs.reverse ++ before) (ys ++ after) = lowerSigma (xs.reverse ++ before') (ys ++ after') := by
  induction cs generalizing before before' with
  | nil => simp [lowerWithin]
  | cons c cs ih =>
    have rest : (∀ xs ys, c :: cs = xs ++ 'Σ' :: ys → lowerSigma (xs.reverse ++ before) (ys ++ after) =
          lowerSigma (xs.reverse ++ before') (ys ++ after')) ↔
        (c = 'Σ' → lowerSigma before (cs ++ after) = lowerSigma before' (cs ++ after')) ∧
          lowerWithin (c :: before) after cs = lowerWithin (c :: before') after' cs := by
      rw [ih]
      constructor
      · intro h
        refine ⟨fun sigma => h [] cs (by rw [sigma]; rfl), fun xs ys split => ?_⟩
        simpa using h (c :: xs) ys (by rw [split]; rfl)
      · rintro ⟨here, later⟩ xs ys split
        cases xs with
        | nil =>
          obtain ⟨sigma, rfl⟩ := List.cons.inj split
          exact here sigma
        | cons x xs =>
          obtain ⟨rfl, behind⟩ := List.cons.inj split
          simpa using later xs ys behind
    rw [rest, lowerWithin, lowerWithin]
    by_cases sigma : c = 'Σ'
    · simp [sigma]
    · simp [sigma]

/-! ## The sigma at a dot -/

def EndsInSigma (cs : List Char) : Prop :=
  ∃ xs ys, cs = xs ++ 'Σ' :: ys ∧ meetsCased xs.reverse = true ∧ ys.all isCaseIgnorable = true

/-- The first letter is a sigma, and the word ends with it. -/
def StartsWithLoneSigma (cs : List Char) : Prop :=
  ∃ xs ys, cs = xs ++ 'Σ' :: ys ∧ xs.all isCaseIgnorable = true ∧ meetsCased ys = false

/-- A sigma beside a dot would end its word or begin it, were it not for the letters beyond the dot. -/
def SigmaAtDot (front back : List Char) : Prop :=
  (EndsInSigma front ∧ meetsCased back = true) ∨ (meetsCased front.reverse = true ∧ StartsWithLoneSigma back)

theorem lowerWithin_dot_iff (front back : List Char) :
    lowerWithin [] ('.' :: back) front = lowerWithin [] [] front ↔
      ¬ (EndsInSigma front ∧ meetsCased back = true) := by
  rw [lowerWithin_eq_iff]
  constructor
  · rintro h ⟨⟨xs, ys, split, letter, ignorable⟩, beyond⟩
    have same := lowerSigma_eq_iff.mp (h xs ys split)
    simp [meetsCased_append, ignorable, meetsCased_dot, beyond, letter, meetsCased_eq_false] at same
  · intro h xs ys split
    rw [lowerSigma_eq_iff, List.append_nil, List.append_nil, meetsCased_append]
    by_cases ignorable : ys.all isCaseIgnorable = true
    · rw [if_pos ignorable, meetsCased_dot, meetsCased_eq_false ignorable]
      cases letter : meetsCased xs.reverse with
      | false => rfl
      | true =>
        cases beyond : meetsCased back with
        | false => rfl
        | true => exact absurd ⟨⟨xs, ys, split, letter, ignorable⟩, beyond⟩ h
    · rw [if_neg ignorable]

theorem lowerWithin_behind_dot_iff (front back : List Char) :
    lowerWithin ('.' :: front.reverse) [] back = lowerWithin [] [] back ↔
      ¬ (meetsCased front.reverse = true ∧ StartsWithLoneSigma back) := by
  rw [lowerWithin_eq_iff]
  constructor
  · rintro h ⟨beyond, xs, ys, split, ignorable, last⟩
    have same := lowerSigma_eq_iff.mp (h xs ys split)
    simp [meetsCased_append, ignorable, meetsCased_dot, beyond, last, meetsCased_eq_false] at same
  · intro h xs ys split
    rw [lowerSigma_eq_iff, List.append_nil, List.append_nil, meetsCased_append, List.all_reverse]
    by_cases ignorable : xs.all isCaseIgnorable = true
    · have none : meetsCased xs.reverse = false := by
        apply meetsCased_eq_false
        rwa [List.all_reverse]
      rw [if_pos ignorable, meetsCased_dot, none]
      cases last : meetsCased ys with
      | true => simp
      | false =>
        cases beyond : meetsCased front.reverse with
        | false => rfl
        | true => exact absurd ⟨beyond, xs, ys, split, ignorable, last⟩ h
    · rw [if_neg ignorable]

theorem lowerChars_dot_iff (front back : List Char) :
    lowerChars (front ++ '.' :: back) = lowerChars front ++ '.' :: lowerChars back ↔
      ¬ SigmaAtDot front back := by
  have dot : lowerWithin front.reverse [] ('.' :: back) =
      '.' :: lowerWithin ('.' :: front.reverse) [] back := by
    rw [lowerWithin]
    rfl
  have whole : lowerChars (front ++ '.' :: back) =
      lowerWithin [] ('.' :: back) front ++ '.' :: lowerWithin ('.' :: front.reverse) [] back := by
    rw [lowerChars, lowerFrom_eq, lowerWithin_append, List.append_nil, List.append_nil, dot]
  rw [whole, lowerChars, lowerChars, lowerFrom_eq, lowerFrom_eq, SigmaAtDot, not_or,
    ← lowerWithin_dot_iff, ← lowerWithin_behind_dot_iff]
  constructor
  · intro same
    obtain ⟨first, second⟩ := List.append_inj same (length_lowerWithin ..)
    exact ⟨first, (List.cons.inj second).2⟩
  · rintro ⟨first, second⟩
    rw [first, second]

end Text

theorem tableKey_eq_iff (names : String × String) :
    tableKey names = Text.lowercase (names.1 ++ "." ++ names.2) ↔
      ¬ Text.SigmaAtDot names.1.toList names.2.toList := by
  rw [← Text.lowerChars_dot_iff, ← String.toList_inj]
  simp [tableKey, Text.lowercase, eq_comm]

/-! ## Mapped tables in a tree -/

section
variable {φ : Type} [FileSystem φ]

structure HasTable (files : φ) (input : Path) (names : String × String) : Prop where
  entries : EntryName names.1 ∧ EntryName names.2
  databases : ∃ listed, FileSystem.list files input = .ok listed ∧ input.join names.1 ∈ listed
  database : FileSystem.isDirectory files (input.join names.1) = true
  tables : ∃ listed, FileSystem.list files (input.join names.1) = .ok listed ∧
    (input.join names.1).join names.2 ∈ listed
  table : FileSystem.isDirectory files ((input.join names.1).join names.2) = true

variable {files : φ} {input : Path}

theorem mem_subdirectories {dir : Path} {n : String} (entry : EntryName n)
    (listed : ∃ entries, FileSystem.list files dir = .ok entries ∧ dir.join n ∈ entries)
    (directory : FileSystem.isDirectory files (dir.join n) = true) {subs : List (String × Path)}
    (h : subdirectories files dir = .ok subs) : (n, dir.join n) ∈ subs := by
  obtain ⟨entries, read, h⟩ := bind_eq_ok h
  obtain ⟨entries', read', mem⟩ := listed
  rw [read'] at read
  cases read
  cases h
  apply List.mem_filterMap.mpr
  refine ⟨dir.join n, List.mem_filter.mpr ⟨mem, directory⟩, ?_⟩
  rw [Path.fileName?_join dir entry, Option.bind_some, Text.read?_encode, Option.map_some]

theorem HasTable.mem {names : String × String} (h : HasTable files input names)
    {tables : List TableDirectory} (read : tableDirectories files input = .ok tables) :
    tableAt input names ∈ tables := by
  obtain ⟨databases, found, read⟩ := bind_eq_ok read
  obtain ⟨groups, made, read⟩ := bind_eq_ok read
  cases read
  have database := mem_subdirectories h.entries.1 h.databases h.database found
  obtain ⟨group, mem, made⟩ :=
    exists_related_of_mem (List.Forall₂.flip (R := flip _) (mapM_eq_ok_iff.mp made)) database
  obtain ⟨subs, listed, made⟩ := bind_eq_ok made
  cases made
  apply List.mem_flatten.mpr
  refine ⟨_, mem, List.mem_map.mpr ⟨(names.2, (input.join names.1).join names.2), ?_, rfl⟩⟩
  exact mem_subdirectories h.entries.2 h.tables h.table listed

namespace ScriptTree

variable {f : ScriptTree φ} {m : TableMapping} {plan : Plan} {mode : Mode} {made : ScriptTree φ × List Task}

theorem tasks_of_tables (h : f.tasks plan mode = .ok made) :
    ∃ tables, tableDirectories f.files f.inputDirectory = .ok tables ∧
      made.2.map (fun t => (t.name, t.destination)) =
        (tables.filter fun t => f.isMapped t.name).map fun t => (t.name, f.destination? t.name) := by
  rw [tasks_eq] at h
  cases found : f.layout plan with
  | error e =>
    rw [found] at h
    cases h
  | ok own =>
    rw [found] at h
    cases h
    obtain ⟨-, tables, listed, rest⟩ := overTables_eq_ok_iff.mp found
    have own_tables : own.map (·.table) = _ :=
      map_of_mapM (fun _ _ read => (tableScripts_eq_ok (mapError_eq_ok read)).1) rest
    refine ⟨tables, listed, ?_⟩
    rw [← own_tables, List.map_map, List.map_map]
    rfl

theorem exists_task_of_key (mapped : f.mapping = some m) (h : f.tasks plan mode = .ok made)
    {names : String × String} (has : HasTable f.files f.inputDirectory names) {value : String}
    (key : m.destination? (Text.lowercase (names.1 ++ "." ++ names.2)) = some value) :
    ∃ t ∈ made.2, t.name = names.1 ++ "." ++ names.2 ∧ t.destination = some value := by
  obtain ⟨tables, listed, same⟩ := tasks_of_tables h
  have kept : tableAt f.inputDirectory names ∈ tables.filter fun t => f.isMapped t.name := by
    apply List.mem_filter.mpr
    refine ⟨has.mem listed, ?_⟩
    simp only [isMapped_of_mapping mapped, tableAt, key, Option.isSome_some]
  have task := List.mem_map_of_mem (f := fun t => (t.name, f.destination? t.name)) kept
  rw [← same] at task
  obtain ⟨t, ht, own⟩ := List.mem_map.mp task
  obtain ⟨name, given⟩ := Prod.mk.inj own
  rw [destination?_of_mapping mapped] at given
  exact ⟨t, ht, name, given.trans key⟩

theorem key_of_task (mapped : f.mapping = some m) (h : f.tasks plan mode = .ok made) {t : Task}
    (ht : t ∈ made.2) :
    ∃ value, m.destination? (Text.lowercase t.name) = some value ∧ t.destination = some value := by
  obtain ⟨tables, -, same⟩ := tasks_of_tables h
  have task := List.mem_map_of_mem (f := fun t => (t.name, t.destination)) ht
  rw [same] at task
  obtain ⟨table, kept, own⟩ := List.mem_map.mp task
  obtain ⟨name, given⟩ := Prod.mk.inj own
  have found := (List.mem_filter.mp kept).2
  rw [isMapped_of_mapping mapped] at found
  obtain ⟨value, found⟩ := Option.isSome_iff_exists.mp found
  rw [destination?_of_mapping mapped, found] at given
  exact ⟨value, name ▸ found, given.symm⟩

/-- A mapped table that is in the tree has its task, with the destination of its line, unless a sigma stands
at the dot of its name. If one does, the table is not looked up under the key of its line, so that it can
have a task only by another line, and with the destination of that one. -/
theorem found_under_own_spelling {contents : String} (read : TableMapping.parse contents = .ok m)
    {line : List Char} (mem : line ∈ Text.lineChars contents.toList) {source destination : String × String}
    (maps : MapsTable line source destination) (mapped : f.mapping = some m)
    (has : HasTable f.files f.inputDirectory source) (h : f.tasks plan mode = .ok made) :
    (¬ Text.SigmaAtDot source.1.toList source.2.toList →
      ∃ t ∈ made.2, t.name = source.1 ++ "." ++ source.2 ∧ t.destination = some (tableKey destination)) ∧
    (Text.SigmaAtDot source.1.toList source.2.toList →
      ∀ t ∈ made.2, t.name = source.1 ++ "." ++ source.2 →
        ∃ line' ∈ Text.lineChars contents.toList, ∃ source' destination',
          MapsTable line' source' destination' ∧ tableKey source' ≠ tableKey source ∧
          t.destination = some (tableKey destination')) := by
  constructor
  · intro apart
    apply exists_task_of_key mapped h has
    rw [← (tableKey_eq_iff source).mpr apart]
    exact (TableMapping.destination?_eq_some_iff read).mpr ⟨line, mem, source, destination, maps, rfl⟩
  · intro beside t ht name
    obtain ⟨value, found, given⟩ := key_of_task mapped h ht
    obtain ⟨line', hl, source', destination', maps', entry⟩ :=
      (TableMapping.destination?_eq_some_iff read).mp found
    obtain ⟨key, rfl⟩ := Prod.mk.inj entry
    refine ⟨line', hl, source', destination', maps', ?_, given⟩
    intro keys
    rw [name, keys] at key
    exact (tableKey_eq_iff source).mp key.symm beside

end ScriptTree

end

theorem Tree.hasTable {tree : Tree} {input : Path} {names : String × String}
    (entries : EntryName names.1 ∧ EntryName names.2) {databases tables children : List String}
    (above : tree.find? input.components = some (.directory databases)) (first : names.1 ∈ databases)
    (database : tree.find? (input.join names.1).components = some (.directory tables))
    (second : names.2 ∈ tables)
    (table : tree.find? ((input.join names.1).join names.2).components = some (.directory children)) :
    HasTable tree input names := by
  have lists : ∀ {dir : Path} {children : List String},
      tree.find? dir.components = some (.directory children) →
      FileSystem.list tree dir = .ok (children.map fun n => dir.join (Text.encode n)) := by
    intro dir children found
    show tree.list dir = _
    rw [Tree.list, found]
  have directory : ∀ {dir : Path} {children : List String},
      tree.find? dir.components = some (.directory children) → FileSystem.isDirectory tree dir = true := by
    intro dir children found
    show tree.isDirectory dir = true
    rw [Tree.isDirectory, found]
  exact {
    entries
    databases := ⟨_, lists above, List.mem_map_of_mem first⟩
    database := directory database
    tables := ⟨_, lists database, List.mem_map_of_mem second⟩
    table := directory table }

/-! ## Two tables of one database -/

namespace Streets

def text : String := "ΟΔΟΣ.t:shop.streets\nΟΔΟΣ.2024:shop.years\n"

def mapping : TableMapping := ⟨[("οδος.2024", "shop.years"), ("οδος.t", "shop.streets")]⟩

def tree : Tree :=
  (Tree.empty.addFile ⟨"in/ΟΔΟΣ/t/create_table/a.q"⟩ "".toUTF8).addFile
    ⟨"in/ΟΔΟΣ/2024/create_table/a.q"⟩ "".toUTF8

theorem read : TableMapping.parse text = .ok mapping := by
  decide +kernel

theorem mem_lines : "ΟΔΟΣ.t:shop.streets".toList ∈ Text.lineChars text.toList ∧
    "ΟΔΟΣ.2024:shop.years".toList ∈ Text.lineChars text.toList := by
  decide +kernel

theorem maps_t : MapsTable "ΟΔΟΣ.t:shop.streets".toList ("ΟΔΟΣ", "t") ("shop", "streets") := by
  refine ⟨by decide +kernel, "ΟΔΟΣ.t".toList, "shop.streets".toList, ⟨?_, ?_⟩, ⟨?_, ?_, ?_⟩, ⟨?_, ?_, ?_⟩⟩ <;>
    decide +kernel

theorem maps_2024 : MapsTable "ΟΔΟΣ.2024:shop.years".toList ("ΟΔΟΣ", "2024") ("shop", "years") := by
  refine ⟨by decide +kernel, "ΟΔΟΣ.2024".toList, "shop.years".toList, ⟨?_, ?_⟩, ⟨?_, ?_, ?_⟩,
    ⟨?_, ?_, ?_⟩⟩ <;> decide +kernel

theorem has_both : HasTable tree ⟨"in"⟩ ("ΟΔΟΣ", "t") ∧ HasTable tree ⟨"in"⟩ ("ΟΔΟΣ", "2024") := by
  have above : tree.find? (⟨"in"⟩ : Path).components = some (.directory ["ΟΔΟΣ"]) := by decide +kernel
  have database : tree.find? ((⟨"in"⟩ : Path).join "ΟΔΟΣ").components = some (.directory ["2024", "t"]) := by
    decide +kernel
  have table : ∀ name ∈ ["2024", "t"], tree.find? (((⟨"in"⟩ : Path).join "ΟΔΟΣ").join name).components =
      some (.directory ["create_table"]) := by
    decide +kernel
  constructor
  · exact Tree.hasTable (by decide) above (by simp) database (by simp) (table "t" (by simp))
  · exact Tree.hasTable (by decide) above (by simp) database (by simp) (table "2024" (by simp))

theorem generated : ∃ made, (ScriptTree.new tree ⟨"in"⟩ (some mapping)).tasks OneTable.plan .single = .ok made ∧
    made.2.map (·.name) = ["ΟΔΟΣ.2024"] :=
  ok_of_toOption_map (by decide +kernel)

/-- Digits are no letters, so that the sigma before them ends its word with and without them. -/
theorem found_2024 : ¬ Text.SigmaAtDot "ΟΔΟΣ".toList "2024".toList ∧
    ∃ made, (ScriptTree.new tree ⟨"in"⟩ (some mapping)).tasks OneTable.plan .single = .ok made ∧
      ∃ t ∈ made.2, t.name = "ΟΔΟΣ" ++ "." ++ "2024" ∧ t.destination = some (tableKey ("shop", "years")) := by
  obtain ⟨made, ok, -⟩ := generated
  have apart : ¬ Text.SigmaAtDot "ΟΔΟΣ".toList "2024".toList :=
    (Text.lowerChars_dot_iff _ _).mp (by decide +kernel)
  exact ⟨apart, made, ok,
    (ScriptTree.found_under_own_spelling read mem_lines.2 maps_2024 rfl has_both.2 ok).1 apart⟩

/-- The table `t` is mapped and is there, and is not found: its whole name has another sigma. -/
theorem lost_t : TableMapping.parse text = .ok mapping ∧
    "ΟΔΟΣ.t:shop.streets".toList ∈ Text.lineChars text.toList ∧
    MapsTable "ΟΔΟΣ.t:shop.streets".toList ("ΟΔΟΣ", "t") ("shop", "streets") ∧
    HasTable tree ⟨"in"⟩ ("ΟΔΟΣ", "t") ∧
    ∃ made, (ScriptTree.new tree ⟨"in"⟩ (some mapping)).tasks OneTable.plan .single = .ok made ∧
      ∀ t ∈ made.2, t.name ≠ "ΟΔΟΣ.t" := by
  refine ⟨read, mem_lines.1, maps_t, has_both.1, ?_⟩
  obtain ⟨made, ok, names⟩ := generated
  refine ⟨made, ok, fun t ht same => ?_⟩
  have known := List.mem_map_of_mem (f := (·.name)) ht
  rw [names, same] at known
  simp at known

end Streets

end TableMigration
