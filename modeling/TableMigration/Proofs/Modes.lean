import TableMigration.Proofs.Layout

/-!
# One tree in both modes

Both modes read the same tables and the same scripts, and group them. In batch mode all scripts of an
action make one unit; in single mode they are split by their stems, each into the unit of its own stem
and into no other, in the order in which they were listed, and those whose stem is no text are left out.
Units of two tables cannot meet in the index while no database has a dot in its name, because then the
name of a task tells its database and its table.
-/

namespace TableMigration

/-! ## Names of tasks -/

theorem tableAt_name (input : Path) (names : String × String) :
    (tableAt input names).name.toList = names.1.toList ++ '.' :: names.2.toList := by
  simp [tableAt]

theorem eq_of_dotless {input : Path} {names names' : String × String} (dotless : '.' ∉ names.1.toList)
    (dotless' : '.' ∉ names'.1.toList) (same : (tableAt input names).name = (tableAt input names').name) :
    names = names' := by
  have cut : ∀ names : String × String, '.' ∉ names.1.toList →
      Text.splitOnce '.' (tableAt input names).name.toList = some (names.1.toList, names.2.toList) :=
    fun names dotless => Text.splitOnce_eq_some_iff.mpr ⟨tableAt_name input names, dotless⟩
  have parts := (cut names dotless).symm.trans ((congrArg _ (congrArg _ same)).trans (cut names' dotless'))
  obtain ⟨database, table⟩ := Prod.mk.inj (Option.some.inj parts)
  exact Prod.ext (String.toList_inj.mp database) (String.toList_inj.mp table)

theorem nodup_names {input : Path} {tables : List (String × String)} (nodup : tables.Nodup)
    (dotless : ∀ names ∈ tables, '.' ∉ names.1.toList) :
    (tables.map fun names => (tableAt input names).name).Nodup :=
  List.Nodup.map_on (fun names h names' h' => eq_of_dotless (dotless names h) (dotless names' h')) nodup

/-! ## Units with their scripts -/

def Task.unitScripts? (t : Task) (index : ScriptIndex) (a : Action) :
    Option (List (String × Option (List Path))) :=
  (t.stage? a).map fun s => s.ids.map fun id => (id, index.scripts? ⟨t.name, a, id⟩)

section
variable {φ : Type} [FileSystem φ] {files : φ} {plan : Plan}

namespace ScriptTree

variable {f : ScriptTree φ} {tables : List TableScripts}

def indexOf (mode : Mode) (tables : List TableScripts) : ScriptIndex :=
  ScriptIndex.empty.insertAll (tables.flatMap (·.entries mode))

theorem map_table {γ : Type} {input : Path} {pairs : List (String × String)}
    (at_pairs : tables.map (·.table) = pairs.map (tableAt input)) (g : TableDirectory → γ) :
    tables.map (fun t => g t.table) = pairs.map fun names => g (tableAt input names) := by
  have same := congrArg (List.map g) at_pairs
  rwa [List.map_map, List.map_map] at same

theorem nodup_of_layout (ordered : ListsInOrder f.files) (found : f.layout plan = .ok tables)
    (dotless : ∀ databases, subdirectories f.files f.inputDirectory = .ok databases →
      ∀ d ∈ databases, '.' ∉ d.1.toList) : (tables.map (·.table.name)).Nodup := by
  obtain ⟨pairs, sorted, -, ⟨databases, read, among⟩, at_pairs, -, -⟩ := layout_eq_ok ordered found
  have nodup : pairs.Nodup := sorted.imp fun {p q} less same => by
    obtain first | ⟨-, second⟩ := Prod.lex_def.mp less
    · exact String.ne_of_lt first (congrArg Prod.fst same)
    · exact String.ne_of_lt second (congrArg Prod.snd same)
  rw [map_table at_pairs TableDirectory.name]
  refine nodup_names nodup fun p hp => ?_
  obtain ⟨d, hd, same⟩ := List.mem_map.mp (among p hp)
  exact same ▸ dotless databases read d hd

theorem tasks_of_layout {files : φ} {input : Path} {mapping : Option TableMapping}
    (found : (new files input mapping).layout plan = .ok tables) (mode : Mode) :
    (new files input mapping).tasks plan mode =
      .ok ({ new files input mapping with index := indexOf mode tables },
        tables.map ((new files input mapping).taskIn plan mode)) := by
  rw [tasks_eq, found]
  rfl

end ScriptTree

end

def ScriptTree.createUnits {φ : Type} :
    Except Error (ScriptTree φ × List Task) → List (String × Option (List Path))
  | .ok (f, t :: _) => (t.unitScripts? f.index .createTable).getD []
  | _ => []

/-! ## A stem that is no text -/

namespace NoText

def directory : Path := ⟨"in/db/t/create_table"⟩

def unreadable : Path :=
  directory.join (0xFF :: Text.encode ".q")

def disk : Disk :=
  ((⟨[], []⟩ : Disk).addFile (directory.join "a.q") .empty).addFile unreadable .empty

def first : ScriptTree Disk := .new disk ⟨"in"⟩ none

end NoText

/-! ## Two files with one stem -/

namespace OneStem

open ScriptTree

def tree : Tree :=
  ((Tree.empty.addFile ⟨"in/db/t/create_table/b.q"⟩ "".toUTF8).addFile ⟨"in/db/t/create_table/a.q"⟩
    "".toUTF8).addFile ⟨"in/db/t/create_table/a.p"⟩ "".toUTF8

def first : ScriptTree Tree := .new tree ⟨"in"⟩ none

theorem ordered : ListsInOrder tree :=
  Tree.InOrder.lists (((Tree.inOrder_empty.addFile _ _).addFile _ _).addFile _ _)

theorem grouped : (subdirectories tree ⟨"in"⟩).toOption = some [("db", ⟨"in/db"⟩)] ∧
    createUnits (first.tasks OneTable.plan .batch) = [("batch", some [⟨"in/db/t/create_table/a.p"⟩,
      ⟨"in/db/t/create_table/a.q"⟩, ⟨"in/db/t/create_table/b.q"⟩])] ∧
    createUnits (first.tasks OneTable.plan .single) = [("a", some [⟨"in/db/t/create_table/a.p"⟩,
      ⟨"in/db/t/create_table/a.q"⟩]), ("b", some [⟨"in/db/t/create_table/b.q"⟩])] := by
  decide +kernel

theorem dotless : ∀ databases, subdirectories tree ⟨"in"⟩ = .ok databases →
    ∀ d ∈ databases, '.' ∉ d.1.toList := by
  intro databases read d hd
  obtain rfl : databases = [("db", ⟨"in/db"⟩)] :=
    Option.some.inj ((congrArg Except.toOption read).symm.trans grouped.1)
  obtain rfl := List.mem_singleton.mp hd
  decide

end OneStem

end TableMigration
