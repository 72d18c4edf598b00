import TableMigration.Proofs.Modes

/-!
# Generation with a mapping

A mapping decides by name alone which tables take part, and gives the tasks of these their destinations.
What is found in a table does not depend on it: whoever generates with a mapping finds the same scripts in
the tables that are left, and makes the same tasks and the same entries of the index of them. So the mapping
can as well be applied afterwards, to what has been generated without it.
-/

namespace TableMigration

namespace ScriptIndex

theorem scripts?_insertAll_filter (keep : UnitKey → Bool) {u : UnitKey} (c : ScriptIndex)
    (entries : List (UnitKey × List Path)) :
    (c.insertAll (entries.filter fun e => keep e.1)).scripts? u =
      if keep u then (c.insertAll entries).scripts? u else c.scripts? u := by
  by_cases kept : keep u = true
  · rw [if_pos kept]
    -- both indexes start with the same scripts for the unit, and keep doing so
    suffices ∀ c c' : ScriptIndex, c.scripts? u = c'.scripts? u →
        (c.insertAll (entries.filter fun e => keep e.1)).scripts? u = (c'.insertAll entries).scripts? u from
      this c c rfl
    induction entries with
    | nil => exact fun c c' same => same
    | cons e entries ih =>
      intro c c' same
      by_cases own : keep e.1 = true
      · rw [List.filter_cons, if_pos own]
        apply ih
        rw [scripts?_insert, scripts?_insert, same]
      · rw [List.filter_cons, if_neg own]
        apply ih
        have other : u ≠ e.1 := fun h => own (h ▸ kept)
        rw [scripts?_insert, if_neg other, same]
  · rw [if_neg kept]
    apply scripts?_insertAll_of_not_mem
    intro scripts h
    exact kept (List.mem_filter.mp h).2

end ScriptIndex

theorem TableScripts.task_of_mem_entries {t : TableScripts} {mode : Mode} {e : UnitKey × List Path}
    (h : e ∈ t.entries mode) : e.1.task = t.table.name := by
  obtain ⟨p, -, h⟩ := List.mem_flatMap.mp h
  obtain ⟨unit, -, rfl⟩ := List.mem_map.mp h
  rfl

namespace ScriptTree

section
variable {φ : Type} {f : ScriptTree φ} {m : TableMapping}

theorem destination?_of_mapping (mapped : f.mapping = some m) (name : String) :
    f.destination? name = m.destination? (Text.lowercase name) := by
  rw [destination?, mapped]
  rfl

theorem isMapped_of_mapping (mapped : f.mapping = some m) (name : String) :
    f.isMapped name = (m.destination? (Text.lowercase name)).isSome := by
  rw [isMapped, mapped]
  rfl

end

theorem tasks_with_mapping {φ : Type} (files : φ) (input : Path) (plan : Plan) (mode : Mode)
    (m : TableMapping) (tables : List TableScripts) :
    (tables.filter fun t => m.contains (Text.lowercase t.table.name)).map
        ((new files input (some m)).taskIn plan mode) =
      (tables.map ((new files input none).taskIn plan mode)).filterMap fun t =>
        (m.destination? (Text.lowercase t.name)).map t.withDestination := by
  induction tables with
  | nil => rfl
  | cons t tables ih =>
    have name : ((new files input none).taskIn plan mode t).name = t.table.name := rfl
    rw [List.filter_cons, List.map_cons, List.filterMap_cons, name, TableMapping.contains]
    cases found : m.destination? (Text.lowercase t.table.name) with
    | none => exact ih
    | some destination =>
      have given : (new files input (some m)).destination? t.table.name = some destination :=
        (destination?_of_mapping rfl t.table.name).trans found
      have task : (new files input (some m)).taskIn plan mode t =
          ((new files input none).taskIn plan mode t).withDestination destination := by
        unfold taskIn
        rw [given]
        rfl
      rw [Option.isSome_some, if_pos rfl, List.map_cons, task, ih]
      rfl

variable {φ : Type} [FileSystem φ] {files : φ} {input : Path} {plan : Plan} {mode : Mode}
  {tables : List TableScripts} {m : TableMapping}

theorem layout_with_mapping (h : (new files input none).layout plan = .ok tables) (m : TableMapping) :
    (new files input (some m)).layout plan =
      .ok (tables.filter fun t => m.contains (Text.lowercase t.table.name)) := by
  obtain ⟨there, directories, listed, h⟩ := overTables_eq_ok_iff.mp h
  have all : directories.filter (fun t => (new files input none).isMapped t.name) = directories := by
    simp [isMapped, new]
  rw [all] at h
  refine overTables_eq_ok_iff.mpr ⟨there, directories, listed, mapM_filter ?_ h⟩
  intro table t found
  obtain ⟨rfl, -, -⟩ := tableScripts_eq_ok (mapError_eq_ok found)
  rfl

/-- Generation with a mapping succeeds wherever it does without one. Of the tasks that are made without it,
which have no destination, it makes those whose names in lower case are in the mapping, in the same order,
and as they are but for the destination that the mapping gives. If both start anew, the units of these tasks
also have the same scripts in the index, and there are no others. -/
theorem mapping_filters {f : ScriptTree φ} (bare : f.mapping = none) {made : ScriptTree φ × List Task}
    (all : f.tasks plan mode = .ok made) (m : TableMapping) :
    (∀ t ∈ made.2, t.destination = none) ∧
    ∃ kept, (new f.files f.inputDirectory (some m)).tasks plan mode = .ok kept ∧
      kept.2 = made.2.filterMap (fun t =>
        (m.destination? (Text.lowercase t.name)).map t.withDestination) ∧
      (f.index = .empty → ∀ u, kept.1.index.scripts? u =
        if m.contains (Text.lowercase u.task) then made.1.index.scripts? u else none) := by
  obtain ⟨files, input, mapping, index⟩ := f
  obtain rfl : mapping = none := bare
  rw [tasks_eq] at all
  cases found : (new files input none).layout plan with
  | error e =>
    have failed : layout ⟨files, input, none, index⟩ plan = .error e := found
    rw [failed] at all
    cases all
  | ok tables =>
    have same : layout ⟨files, input, none, index⟩ plan = .ok tables := found
    rw [same] at all
    cases all
    refine ⟨?_, _, tasks_of_layout (layout_with_mapping found m) mode, ?_, ?_⟩
    · intro t ht
      obtain ⟨own, -, rfl⟩ := List.mem_map.mp ht
      rfl
    · exact tasks_with_mapping files input plan mode m tables
    · intro new u
      obtain rfl : index = .empty := new
      have entries := flatMap_filter (f := fun t : TableScripts => t.entries mode)
        (p := fun t => m.contains (Text.lowercase t.table.name))
        (q := fun e => m.contains (Text.lowercase e.1.task))
        (fun t e he => by simp only [TableScripts.task_of_mem_entries he]) tables
      rw [indexOf, entries, ScriptIndex.scripts?_insertAll_filter fun u => m.contains (Text.lowercase u.task)]
      rfl

end ScriptTree

/-! ## One table of two -/

namespace OneMapped

def tree : Tree :=
  (Tree.empty.addFile ⟨"in/Sales/Orders/create_table/a.q"⟩ "".toUTF8).addFile
    ⟨"in/sales/returns/create_table/a.q"⟩ "".toUTF8

def mapping : TableMapping := ⟨[("sales.orders", "shop.orders")]⟩

theorem generated : ∃ made, (ScriptTree.new tree ⟨"in"⟩ none).tasks OneTable.plan .single = .ok made ∧
    made.2.map (·.name) = ["Sales.Orders", "sales.returns"] :=
  ok_of_toOption_map (by decide +kernel)

theorem kept : ∃ kept, (ScriptTree.new tree ⟨"in"⟩ (some mapping)).tasks OneTable.plan .single = .ok kept ∧
    kept.2.map (fun t => (t.name, t.destination)) = [("Sales.Orders", some "shop.orders")] := by
  obtain ⟨made, read, names⟩ := generated
  obtain ⟨-, kept, read', same, -⟩ := ScriptTree.mapping_filters rfl read mapping
  have pairs : kept.2.map (fun t => (t.name, t.destination)) = (made.2.map (·.name)).filterMap fun name =>
      (mapping.destination? (Text.lowercase name)).map fun destination => (name, some destination) := by
    rw [same, List.map_filterMap, List.filterMap_map]
    apply List.filterMap_congr
    intro t _
    rw [Option.map_map]
    rfl
  refine ⟨kept, read', pairs.trans ?_⟩
  rw [names]
  decide +kernel

end OneMapped

end TableMigration
