import TableMigration.Proofs.Modes

/-!
# Names of tables that run together

The name of a task is its database and its table with a dot in between, and directories can have dots in
their own names. So the tables `c` of `a.b` and `b.c` of `a` go by one name, and as the index of scripts
has one place for a name, both run the scripts of the later one. This is the only way for two tables to
share a name: one database is the other one, a dot, and what the tables differ by.
-/

namespace TableMigration

/-- The second database is the first one with more behind a dot, by which the first table is longer than
the second. -/
def RunTogether (names names' : String × String) : Prop :=
  ∃ middle, names'.1 = names.1 ++ "." ++ middle ∧ names.2 = middle ++ "." ++ names'.2

def SharesName (names names' : String × String) : Prop :=
  names = names' ∨ RunTogether names names' ∨ RunTogether names' names

theorem RunTogether.of_toList {names names' : String × String} {middle : List Char}
    (database : names'.1.toList = names.1.toList ++ '.' :: middle)
    (table : names.2.toList = middle ++ '.' :: names'.2.toList) : RunTogether names names' :=
  ⟨String.ofList middle, String.toList_inj.mp (by simp [database]), String.toList_inj.mp (by simp [table])⟩

theorem RunTogether.name_eq {names names' : String × String} (together : RunTogether names names')
    (input : Path) : (tableAt input names).name = (tableAt input names').name := by
  obtain ⟨middle, database, table⟩ := together
  simp only [tableAt, database, table, String.append_assoc]

theorem same_or_runTogether {names names' : String × String} {more : List Char}
    (database : names'.1.toList = names.1.toList ++ more)
    (rest : '.' :: names.2.toList = more ++ '.' :: names'.2.toList) :
    names = names' ∨ RunTogether names names' := by
  cases more with
  | nil =>
    refine Or.inl (Prod.ext (String.toList_inj.mp ?_) (String.toList_inj.mp ?_))
    · rw [database, List.append_nil]
    · exact (List.cons.inj rest).2
  | cons dot middle =>
    obtain ⟨rfl, table⟩ := List.cons.inj rest
    exact Or.inr (.of_toList database table)

theorem name_eq_iff (input : Path) {names names' : String × String} :
    (tableAt input names).name = (tableAt input names').name ↔ SharesName names names' := by
  constructor
  · intro same
    rw [← String.toList_inj, tableAt_name, tableAt_name, List.append_eq_append_iff] at same
    obtain ⟨more, database, rest⟩ | ⟨more, database, rest⟩ := same
    · exact (same_or_runTogether database rest).imp_right Or.inl
    · exact (same_or_runTogether database rest).imp Eq.symm Or.inr
  · rintro (rfl | here | there)
    · rfl
    · exact here.name_eq input
    · exact (there.name_eq input).symm

/-! ## Whose scripts a unit has -/

section
variable {φ : Type} [FileSystem φ] {files : φ} {plan : Plan} {mode : Mode}

theorem owner_of_scripts? {input : Path} {pairs : List (String × String)} {tables : List TableScripts}
    (found : ∀ t ∈ tables, t.FoundIn files plan)
    (at_pairs : tables.map (·.table) = pairs.map (tableAt input)) {u : UnitKey}
    (inPlan : u.action ∈ plan.gated) {own : List Path}
    (h : (ScriptTree.indexOf mode tables).scripts? u = some own) :
    ∃ (k : Nat) (owner : String × String) (listed : List Path), pairs[k]? = some owner ∧
      (tableAt input owner).name = u.task ∧
      scriptsIn files ((tableAt input owner).path.join u.action.name) = .ok listed ∧
      own = ownScripts mode listed u.unit ∧ own ≠ [] ∧
      ∀ j > k, ∀ later, pairs[j]? = some later → (tableAt input later).name = u.task →
        ∀ listed', scriptsIn files ((tableAt input later).path.join u.action.name) = .ok listed' →
          ownScripts mode listed' u.unit = [] := by
  rw [ScriptTree.indexOf, scripts?_entries found] at h
  obtain ⟨k, t, at_t, given, none_after⟩ := last_of_findSome? h
  obtain ⟨name, group⟩ := Option.ite_none_right_eq_some.mp given
  obtain ⟨owner, at_k, table⟩ := exists_of_map_eq at_pairs at_t
  have listed := (found t (List.mem_of_getElem? at_t)).scriptsIn_eq inPlan
  obtain ⟨same, filled⟩ := mem_groupScripts.mp (Ordered.mem_of_find? group)
  refine ⟨k, owner, t.scripts u.action, at_k, table ▸ name, table ▸ listed, same, filled, ?_⟩
  intro j after later at_j name' listed' read
  obtain ⟨t', at_t', table'⟩ := exists_of_map_eq at_pairs.symm at_j
  have none := none_after j after t' at_t'
  rw [← table', (found t' (List.mem_of_getElem? at_t')).scriptsIn_eq inPlan] at read
  rw [TableScripts.scriptsOf?, if_pos (table' ▸ name'), TableScripts.units, find?_groupScripts,
    Except.ok.inj read] at none
  split at none
  next empty => exact empty
  next => cases none

namespace ScriptTree

/-- What a generation has made of the tables that take part: their tasks in order, and for each unit the
scripts of one of the tables, which is the last that goes by the name of the task and has such a unit. -/
structure ScriptOwners (files : φ) (input : Path) (mode : Mode) (tables : List (String × String))
    (made : ScriptTree φ × List Task) : Prop where
  sorted : tables.Pairwise (Prod.Lex (· < ·) (· < ·))
  named : made.2.map (·.name) = tables.map fun names => (tableAt input names).name
  owned : ∀ {i : Nat} {names : String × String} {t : Task}, tables[i]? = some names → made.2[i]? = some t →
    ∀ s ∈ t.stages, ∀ u ∈ s.units, ∃ (k : Nat) (owner : String × String) (listed : List Path),
      tables[k]? = some owner ∧ SharesName names owner ∧
      scriptsIn files ((tableAt input owner).path.join s.action.name) = .ok listed ∧
      made.1.index.scripts? ⟨t.name, s.action, u.id⟩ = some (ownScripts mode listed u.id) ∧
      ownScripts mode listed u.id ≠ [] ∧
      (∀ script ∈ ownScripts mode listed u.id, ∃ n, EntryName n ∧
        script = ((tableAt input owner).path.join s.action.name).join n) ∧
      ∀ j > k, ∀ later, tables[j]? = some later → SharesName names later →
        ∀ listed', scriptsIn files ((tableAt input later).path.join s.action.name) = .ok listed' →
          ownScripts mode listed' u.id = []

/-- Tables go by one name exactly if they run together, and then they run the scripts of the last one. So
the scripts of a unit lie below the directory of its own table unless another one runs together with it. -/
theorem names_and_scripts (ordered : ListsInOrder files) {input : Path} {mapping : Option TableMapping}
    {made : ScriptTree φ × List Task} (h : (new files input mapping).tasks plan mode = .ok made) :
    (∃ tables, ScriptOwners files input mode tables made) ∧
    ∀ names names', (tableAt input names).name = (tableAt input names').name ↔ SharesName names names' := by
  refine ⟨?_, fun names names' => name_eq_iff input⟩
  have supplied := (tasks_supplied h).1
  cases found : (new files input mapping).layout plan with
  | error e => rw [tasks_eq, found] at h; cases h
  | ok tables =>
    obtain ⟨pairs, sorted, -, -, at_pairs, -, each⟩ := layout_eq_ok ordered found
    obtain rfl := Except.ok.inj ((tasks_of_layout found mode).symm.trans h)
    refine ⟨pairs, sorted, ?_, fun {i names t} at_i at_t s hs u hu => ?_⟩
    · rw [List.map_map]
      exact map_table at_pairs TableDirectory.name
    · obtain ⟨gated, scripts, -, held⟩ := (supplied t (List.mem_of_getElem? at_t)).2 s hs u hu
      obtain ⟨own, at_own, rfl⟩ := Option.map_eq_some_iff.mp (List.getElem?_map.symm.trans at_t)
      have inPlan : s.action ∈ plan.gated := by
        obtain ⟨a, ha, rfl⟩ := List.mem_map.mp hs
        exact List.mem_filter.mpr ⟨ha, by simpa [Action.isGated] using gated⟩
      obtain ⟨_, at_names, table⟩ := exists_of_map_eq at_pairs at_own
      obtain rfl := Option.some.inj (at_i.symm.trans at_names)
      have named : (tableAt input names).name = own.table.name := congrArg _ table
      obtain ⟨k, owner, listed, at_k, name, read, rfl, filled, none_after⟩ :=
        owner_of_scripts? each at_pairs inPlan held
      refine ⟨k, owner, listed, at_k, (name_eq_iff input).mp (named.trans name.symm), read, held, filled,
        fun script hs => scriptsIn_entries ordered read script (List.mem_of_mem_filter hs), ?_⟩
      intro j after later at_j shares
      exact none_after j after later at_j (((name_eq_iff input).mpr shares).symm.trans named)

end ScriptTree

end

/-! ## Two tables of one name -/

namespace DottedDatabase

def tree : Tree :=
  (Tree.empty.addFile ⟨"in/a/b.c/create_table/x.q"⟩ "".toUTF8).addFile ⟨"in/a.b/c/create_table/x.q"⟩
    "".toUTF8

def first : ScriptTree Tree := .new tree ⟨"in"⟩ none

def early : TableDirectory := tableAt ⟨"in"⟩ ("a", "b.c")

def late : TableDirectory := tableAt ⟨"in"⟩ ("a.b", "c")

theorem ordered : ListsInOrder tree :=
  Tree.InOrder.lists ((Tree.inOrder_empty.addFile _ _).addFile _ _)

theorem evaluated : (first.tasks OneTable.plan .single).toOption.map (fun made =>
    (made.2.map (·.name), made.1.index.scripts? ⟨early.name, .createTable, "x"⟩)) =
    some ([early.name, late.name], some [(late.path.join "create_table").join "x.q"]) := by
  decide +kernel

theorem generated : ∃ made, first.tasks OneTable.plan .single = .ok made ∧
    made.2.map (·.name) = [early.name, late.name] ∧
    made.1.index.scripts? ⟨early.name, .createTable, "x"⟩ =
      some [(late.path.join "create_table").join "x.q"] := by
  have read := evaluated
  cases made : first.tasks OneTable.plan .single with
  | error e => rw [made] at read; cases read
  | ok made' =>
    rw [made] at read
    obtain ⟨names, scripts⟩ := Prod.mk.inj (Option.some.inj read)
    exact ⟨made', rfl, names, scripts⟩

/-- Both tables go by one name, and the early one gets the script of the late one. -/
theorem one_name : early.name = late.name ∧ early.path ≠ late.path ∧
    ∃ made, first.tasks OneTable.plan .single = .ok made ∧
      made.2.map (·.name) = [early.name, late.name] ∧
      made.1.index.scripts? ⟨early.name, .createTable, "x"⟩ =
        some [(late.path.join "create_table").join "x.q"] :=
  ⟨by decide, by decide, generated⟩

theorem owners : ∃ made tables, first.tasks OneTable.plan .single = .ok made ∧ made.2.length = 2 ∧
    ScriptTree.ScriptOwners tree ⟨"in"⟩ .single tables made := by
  obtain ⟨made, read, names, -⟩ := generated
  obtain ⟨⟨tables, owners⟩, -⟩ := ScriptTree.names_and_scripts ordered read
  exact ⟨made, tables, read, by simpa using congrArg List.length names, owners⟩

end DottedDatabase

end TableMigration
