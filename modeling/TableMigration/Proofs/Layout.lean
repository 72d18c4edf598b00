import Mathlib.Data.List.Induction
import TableMigration.Proofs.Generation
import TableMigration.Proofs.Paths
import TableMigration.Proofs.Seeding

/-!
# What generation finds

What lies below the input directory, and whether it can be read, does not depend on the mode: a mode only
groups the scripts that were found. So generation is split here into what it finds, `ScriptTree.layout`,
and what it makes of it. A group has the scripts of its unit in the order in which they were listed, and
the groups come in ascending order of their units.
-/

namespace TableMigration

/-! ## Groups -/

namespace Ordered

section
variable {κ α : Type} [LT κ] [DecidableLT κ] [DecidableEq κ]

theorem keys_alter (k : κ) (f : Option α → α) (xs : List (κ × α)) :
    (alter k f xs).map (·.1) = insertKey k (xs.map (·.1)) := by
  induction xs with
  | nil => rfl
  | cons x xs ih =>
    rw [alter, List.map_cons, insertKey]
    by_cases before : k < x.1
    · rw [if_pos before, if_pos before, List.map_cons, List.map_cons]
    · rw [if_neg before, if_neg before]
      by_cases same : k = x.1
      · rw [if_pos same, if_pos same, List.map_cons]
      · rw [if_neg same, if_neg same, List.map_cons, ih]

end

section
variable {κ α : Type} [DecidableEq κ]

theorem find?_eq_none {k : κ} {xs : List (κ × α)} (h : k ∉ xs.map (·.1)) : find? k xs = none := by
  induction xs with
  | nil => rfl
  | cons x xs ih =>
    obtain ⟨other, rest⟩ := not_or.mp (mt List.mem_cons.mpr h)
    rw [find?, if_neg other, ih rest]

theorem mem_of_find? {k : κ} {v : α} {xs : List (κ × α)} (h : find? k xs = some v) : (k, v) ∈ xs := by
  induction xs with
  | nil => cases h
  | cons x xs ih =>
    rw [find?] at h
    split at h
    next same => exact same ▸ Option.some.inj h ▸ List.mem_cons_self ..
    next => exact List.mem_cons_of_mem _ (ih h)

theorem find?_eq_some_iff {k : κ} {v : α} {xs : List (κ × α)} (nodup : (xs.map (·.1)).Nodup) :
    find? k xs = some v ↔ (k, v) ∈ xs := by
  refine ⟨mem_of_find?, fun h => ?_⟩
  cases found : find? k xs with
  | none =>
    induction xs with
    | nil => cases h
    | cons x xs ih =>
      rw [find?] at found
      split at found
      · cases found
      next other =>
        obtain rfl | h := List.mem_cons.mp h
        · exact absurd rfl other
        · exact ih (List.nodup_cons.mp nodup).2 h found
  | some w =>
    exact congrArg some (Prod.mk.inj
      (List.inj_on_of_nodup_map nodup (mem_of_find? found) h rfl)).2

end

section
variable {κ α : Type} [LE κ] [LT κ] [DecidableLT κ] [DecidableEq κ] [Std.IsLinearOrder κ]
  [Std.LawfulOrderLT κ]

theorem find?_alter (k k' : κ) (f : Option α → α) {xs : List (κ × α)}
    (ascending : (xs.map (·.1)).Pairwise (· < ·)) :
    find? k' (alter k f xs) = if k' = k then some (f (find? k xs)) else find? k' xs := by
  induction xs with
  | nil => by_cases same : k' = k <;> simp [alter, find?, same]
  | cons x xs ih =>
    obtain ⟨first, rest⟩ := List.pairwise_cons.mp ascending
    unfold alter
    by_cases before : k < x.1
    · have absent : k ∉ (x :: xs).map (·.1) := by
        intro h
        obtain here | later := List.mem_cons.mp h
        · exact Std.lt_irrefl (here ▸ before)
        · exact Std.lt_irrefl (Std.lt_trans before (first k later))
      rw [if_pos before, find?, find?_eq_none absent]
    · rw [if_neg before]
      by_cases same : k = x.1
      · rw [if_pos same]
        by_cases own : k' = k
        · simp [find?, own, same]
        · simp [find?, own, same ▸ own]
      · rw [if_neg same, find?, ih rest, find?, find?, if_neg same]
        by_cases own : k' = k
        · rw [own, if_neg same, if_pos rfl, if_pos rfl]
        · rw [if_neg own, if_neg own]

end

theorem ofKeys_of_pairwise {ks : List String} (h : ks.Pairwise (· < ·)) : ofKeys ks = ks := by
  induction ks with
  | nil => rfl
  | cons k ks ih =>
    obtain ⟨first, rest⟩ := List.pairwise_cons.mp h
    rw [ofKeys, List.foldr_cons, ← ofKeys, ih rest]
    cases ks with
    | nil => rfl
    | cons k' ks => rw [insertKey, if_pos (first k' (List.mem_cons_self ..))]

end Ordered

def ownScripts (mode : Mode) (scripts : List Path) (id : String) : List Path :=
  scripts.filter fun script => unitOf? mode script = some id

theorem groupScripts_concat (mode : Mode) (scripts : List Path) (script : Path) :
    groupScripts mode (scripts ++ [script]) =
      match unitOf? mode script with
      | some id => Ordered.alter id (fun had => had.getD [] ++ [script]) (groupScripts mode scripts)
      | none => groupScripts mode scripts := by
  rw [groupScripts, List.foldl_append]
  rfl

theorem groupScripts_ascending (mode : Mode) (scripts : List Path) :
    ((groupScripts mode scripts).map (·.1)).Pairwise (· < ·) := by
  induction scripts using List.reverseRecOn with
  | nil => exact List.Pairwise.nil
  | append_singleton scripts script ih =>
    rw [groupScripts_concat]
    split
    · rw [Ordered.keys_alter]
      exact Ordered.pairwise_insertKey ih
    · exact ih

theorem find?_groupScripts (mode : Mode) (scripts : List Path) (id : String) :
    Ordered.find? id (groupScripts mode scripts) =
      if ownScripts mode scripts id = [] then none else some (ownScripts mode scripts id) := by
  -- from the last script on, since it is the last one that joins its group
  induction scripts using List.reverseRecOn with
  | nil => rfl
  | append_singleton scripts script ih =>
    have own : ownScripts mode (scripts ++ [script]) id = ownScripts mode scripts id ++
        if unitOf? mode script = some id then [script] else [] := by
      by_cases h : unitOf? mode script = some id <;> simp [ownScripts, h]
    rw [groupScripts_concat, own]
    cases unit : unitOf? mode script with
    | none => simpa using ih
    | some id' =>
      rw [Ordered.find?_alter _ _ _ (groupScripts_ascending mode scripts)]
      by_cases same : id = id'
      · subst same
        by_cases first : ownScripts mode scripts id = [] <;> simp [ih, first]
      · simp [same, Ne.symm same, ih]

theorem mem_groupScripts {mode : Mode} {scripts own : List Path} {id : String} :
    (id, own) ∈ groupScripts mode scripts ↔ own = ownScripts mode scripts id ∧ own ≠ [] := by
  have nodup : ((groupScripts mode scripts).map (·.1)).Nodup :=
    (groupScripts_ascending mode scripts).imp String.ne_of_lt
  rw [← Ordered.find?_eq_some_iff nodup, find?_groupScripts]
  split
  next none =>
    refine ⟨fun h => (nomatch h), fun ⟨same, ne⟩ => absurd (same.trans none) ne⟩
  next ne =>
    rw [Option.some.injEq]
    exact ⟨fun same => ⟨same.symm, same ▸ ne⟩, fun h => h.1.symm⟩

namespace ScriptIndex

variable {c : ScriptIndex} {u : UnitKey} {scripts : List Path} {entries : List (UnitKey × List Path)}

theorem scripts?_insertAll_of_not_mem (h : ∀ scripts, (u, scripts) ∉ entries) :
    (c.insertAll entries).scripts? u = c.scripts? u := by
  induction entries generalizing c with
  | nil => rfl
  | cons e entries ih =>
    have other : u ≠ e.1 := fun same => h e.2 (same ▸ List.mem_cons_self ..)
    refine (ih fun scripts later => h scripts (List.mem_cons_of_mem _ later)).trans ?_
    rw [scripts?_insert, if_neg other]

theorem scripts?_insertAll_of_mem (h : (u, scripts) ∈ entries)
    (only : ∀ other, (u, other) ∈ entries → other = scripts) :
    (c.insertAll entries).scripts? u = some scripts := by
  suffices ∀ entries c, (∀ other, (u, other) ∈ entries → other = scripts) →
      ((u, scripts) ∈ entries ∨ c.scripts? u = some scripts) →
      (ScriptIndex.insertAll c entries).scripts? u = some scripts from this _ _ only (Or.inl h)
  clear h only
  intro entries
  induction entries with
  | nil => exact fun c _ h => h.resolve_left List.not_mem_nil
  | cons e entries ih =>
    intro c only h
    refine ih (c.insert e.1 e.2) (fun other later => only other (List.mem_cons_of_mem _ later)) ?_
    rw [scripts?_insert]
    by_cases same : u = e.1
    · exact Or.inr (by rw [if_pos same, only e.2 (same ▸ List.mem_cons_self ..)])
    · rw [if_neg same]
      obtain here | had := h
      · obtain here | later := List.mem_cons.mp here
        · exact absurd (congrArg Prod.fst here) same
        · exact Or.inl later
      · exact Or.inr had

end ScriptIndex

/-! ## Tables with their scripts -/

section
variable {φ : Type} [FileSystem φ]

/-- The files of an action directory in the order in which they are listed, of which there are none if
it is not there. -/
def scriptsIn (files : φ) (dir : Path) : Except FileError (List Path) :=
  if FileSystem.isDirectory files dir then
    (FileSystem.list files dir).map (·.filter (FileSystem.isFile files))
  else .ok []

theorem unitsIn_eq (files : φ) (mode : Mode) (dir : Path) :
    unitsIn files mode dir = (scriptsIn files dir).map (groupScripts mode) := by
  unfold unitsIn scriptsIn
  split
  · cases FileSystem.list files dir <;> rfl
  · rfl

end

structure TableScripts where
  table : TableDirectory
  byAction : List (Action × List Path)

namespace TableScripts

def scripts (t : TableScripts) (a : Action) : List Path :=
  (t.byAction.lookup a).getD []

def units (t : TableScripts) (mode : Mode) (a : Action) : UnitScripts :=
  groupScripts mode (t.scripts a)

def task (t : TableScripts) (plan : Plan) (mode : Mode) (destination : Option String) : Task :=
  ⟨t.table.name, destination, plan.actions.map fun a => .ofIds a ((t.units mode a).map (·.1)), .new⟩

def entries (t : TableScripts) (mode : Mode) : List (UnitKey × List Path) :=
  tableEntries t.table.name (t.byAction.map fun p => (p.1, groupScripts mode p.2))

end TableScripts

section
variable {φ : Type} [FileSystem φ]

def tableScripts (files : φ) (plan : Plan) (table : TableDirectory) : Except FileError TableScripts :=
  (plan.gated.mapM fun a => (scriptsIn files (table.path.join a.name)).map (a, ·)).map (⟨table, ·⟩)

theorem unitsByAction_eq (files : φ) (mode : Mode) (plan : Plan) (table : TableDirectory) :
    unitsByAction files mode plan table.path =
      (tableScripts files plan table).map fun t => t.byAction.map fun p => (p.1, groupScripts mode p.2) := by
  have step : ∀ a : Action, (unitsIn files mode (table.path.join a.name)).map (a, ·) =
      ((scriptsIn files (table.path.join a.name)).map (a, ·)).map fun p => (p.1, groupScripts mode p.2) := by
    intro a
    rw [unitsIn_eq]
    cases scriptsIn files (table.path.join a.name) <;> rfl
  rw [unitsByAction, funext step, mapM_map, tableScripts]
  cases plan.gated.mapM fun a => (scriptsIn files (table.path.join a.name)).map (a, ·) <;> rfl

theorem tableScripts_eq_ok {files : φ} {plan : Plan} {table : TableDirectory} {t : TableScripts}
    (h : tableScripts files plan table = .ok t) :
    t.table = table ∧ t.byAction.map (·.1) = plan.gated ∧
      ∀ p ∈ t.byAction, scriptsIn files (table.path.join p.1.name) = .ok p.2 := by
  obtain ⟨byAction, made, rfl⟩ := map_eq_ok h
  have found : ∀ (a : Action) (p : Action × List Path),
      (scriptsIn files (table.path.join a.name)).map (a, ·) = .ok p →
      p.1 = a ∧ scriptsIn files (table.path.join p.1.name) = .ok p.2 := by
    intro a p found
    obtain ⟨scripts, read, rfl⟩ := map_eq_ok found
    exact ⟨rfl, read⟩
  refine ⟨rfl, map_of_mapM (fun a p read => (found a p read).1) made, fun p hp => ?_⟩
  obtain ⟨a, -, read⟩ := exists_related_of_mem (mapM_eq_ok_iff.mp made) hp
  exact (found a p read).2

end

/-! ## Generation from what is found -/

namespace TableScripts

variable {t : TableScripts} {plan : Plan}

theorem seedsOf_eq (t : TableScripts) (mode : Mode) (a : Action) :
    seedsOf (t.byAction.map fun p => (p.1, groupScripts mode p.2)) a =
      (t.byAction.lookup a).map fun scripts => (groupScripts mode scripts).map (·.1) := by
  unfold seedsOf
  induction t.byAction with
  | nil => rfl
  | cons p rest ih =>
    rw [List.map_cons, List.lookup_cons, List.lookup_cons]
    cases a == p.1 with
    | true => rfl
    | false => exact ih

theorem ofPlan_eq (gated : t.byAction.map (·.1) = plan.gated) (mode : Mode) :
    Task.ofPlan t.table.name plan (seedsOf (t.byAction.map fun p => (p.1, groupScripts mode p.2))) =
      .ok (t.task plan mode none) := by
  have keys : ∀ a, seedsOf (t.byAction.map fun p => (p.1, groupScripts mode p.2)) a ≠ none ↔
      a ∈ plan.gated := by
    intro a
    rw [seedsOf_eq, ← Option.isSome_iff_ne_none, Option.isSome_map, List.lookup_isSome_iff, ← gated,
      List.mem_map]
    refine exists_congr fun p => and_congr_right fun _ => ?_
    rw [beq_iff_eq, eq_comm]
  have ids : ∀ a, (seedsOf (t.byAction.map fun p => (p.1, groupScripts mode p.2)) a).getD [] =
      (t.units mode a).map (·.1) := by
    intro a
    rw [seedsOf_eq, units, scripts]
    cases t.byAction.lookup a with
    | none => rfl
    | some found => rfl
  rw [Task.ofPlan_of_keys keys, Task.ofSeeds]
  simp only [ids]
  rfl

theorem stage?_task (t : TableScripts) (mode : Mode) (destination : Option String) {a : Action}
    (ha : a ∈ plan.actions) : (t.task plan mode destination).stage? a =
      some (.ofIds a ((t.units mode a).map (·.1))) := by
  rw [Task.stage?, task, List.find?_map]
  have at_a : plan.actions.find? ((fun s : Stage => s.action == a) ∘ fun b =>
      .ofIds b ((t.units mode b).map (·.1))) = some a := by
    cases found : plan.actions.find? _ with
    | none => simpa [Stage.ofIds] using List.find?_eq_none.mp found a ha
    | some b => exact congrArg some (by simpa [Stage.ofIds] using List.find?_some found)
  rw [at_a, Option.map_some]

end TableScripts

namespace ScriptTree

variable {φ : Type}

def taskIn (f : ScriptTree φ) (plan : Plan) (mode : Mode) (t : TableScripts) : Task :=
  t.task plan mode (f.destination? t.table.name)

theorem direct_task (f : ScriptTree φ) (t : TableScripts) (plan : Plan) (mode : Mode) :
    f.direct (t.task plan mode none) = f.taskIn plan mode t := by
  unfold direct taskIn
  change (match f.destination? t.table.name with | some _ => _ | none => _) = _
  cases f.destination? t.table.name <;> rfl

variable [FileSystem φ]

/-- What generation finds below the input directory: the tables that take part, and their scripts. -/
def layout (f : ScriptTree φ) (plan : Plan) : Except Error (List TableScripts) :=
  f.overTables fun t => (tableScripts f.files plan t).mapError .file

theorem taskOf_eq (f : ScriptTree φ) (plan : Plan) (mode : Mode) (table : TableDirectory) :
    f.taskOf plan mode table = ((tableScripts f.files plan table).mapError Error.file).map
      fun t => (f.taskIn plan mode t, t.entries mode) := by
  unfold taskOf
  rw [unitsByAction_eq]
  cases found : tableScripts f.files plan table with
  | error e => rfl
  | ok t =>
    obtain ⟨rfl, gated, -⟩ := tableScripts_eq_ok found
    change ((Task.ofPlan t.table.name plan _).mapError Error.plan >>= _) = _
    rw [TableScripts.ofPlan_eq gated mode]
    change Except.ok (f.direct _, _) = Except.ok _
    rw [direct_task]
    rfl

theorem overTables_map {β γ : Type} (f : ScriptTree φ) (found : TableDirectory → Except Error β) (g : β → γ) :
    f.overTables (fun t => (found t).map g) = (f.overTables found).map (List.map g) := by
  have each : ∀ database, f.inDatabase (fun t => (found t).map g) database =
      (f.inDatabase found database).map (List.map g) := by
    intro database
    unfold inDatabase
    cases (tablesIn f.files database).mapError Error.file with
    | error e => rfl
    | ok tables => exact mapM_map found g _
  unfold overTables
  split
  · rfl
  · cases (subdirectories f.files f.inputDirectory).mapError Error.file with
    | error e => rfl
    | ok databases =>
      change Except.map List.flatten (databases.mapM (f.inDatabase _)) =
        Except.map _ (Except.map List.flatten (databases.mapM (f.inDatabase found)))
      rw [funext each, mapM_map]
      cases databases.mapM (f.inDatabase found) with
      | error e => rfl
      | ok groups => exact congrArg Except.ok List.map_flatten.symm

/-- Generation groups what was found, and nothing else. -/
theorem tasks_eq (f : ScriptTree φ) (plan : Plan) (mode : Mode) :
    f.tasks plan mode = (f.layout plan).map fun tables =>
      ({ f with index := f.index.insertAll (tables.flatMap (·.entries mode)) },
        tables.map (f.taskIn plan mode)) := by
  rw [tasks_eq_overTables, funext (f.taskOf_eq plan mode), overTables_map, layout]
  cases f.overTables fun t => (tableScripts f.files plan t).mapError Error.file with
  | error e => rfl
  | ok tables =>
    change Except.ok _ = Except.ok _
    simp [List.flatMap_map, Function.comp_def]

end ScriptTree

/-! ## Tables by their directories -/

def tableAt (input : Path) (names : String × String) : TableDirectory :=
  ⟨names.1 ++ "." ++ names.2, (input.join names.1).join names.2⟩

section
variable {φ : Type} [FileSystem φ] {files : φ}

theorem scriptsIn_entries (ordered : ListsInOrder files) {dir : Path} {scripts : List Path}
    (h : scriptsIn files dir = .ok scripts) :
    ∀ script ∈ scripts, ∃ n : RawText, EntryName n ∧ script = dir.join n := by
  unfold scriptsIn at h
  split at h
  · cases listed : FileSystem.list files dir with
    | error e => rw [listed] at h; cases h
    | ok entries =>
      rw [listed] at h
      cases h
      intro script hs
      obtain ⟨names, -, proper, rfl⟩ := ordered dir entries listed
      obtain ⟨n, hn, rfl⟩ := List.mem_map.mp (List.mem_of_mem_filter hs)
      exact ⟨n, proper n hn, rfl⟩
  · cases h
    exact List.forall_mem_nil _

theorem subdirectories_eq_ok (ordered : ListsInOrder files) {dir : Path} {subs : List (String × Path)}
    (h : subdirectories files dir = .ok subs) : ∃ names : List String, names.Pairwise (· < ·) ∧
      (∀ n ∈ names, EntryName (Text.encode n)) ∧
      subs = names.map fun n => (n, dir.join (Text.encode n)) := by
  obtain ⟨entries, listed, h⟩ := bind_eq_ok h
  obtain ⟨names, ascending, proper, rfl⟩ := ordered dir entries listed
  let directories := names.filter fun n => FileSystem.isDirectory files (dir.join n)
  have proper : ∀ n ∈ directories, EntryName n := fun n hn => proper n (List.mem_of_mem_filter hn)
  refine ⟨directories.filterMap Text.read?, ?_, ?_, (Except.ok.inj h).symm.trans ?_⟩
  · refine List.pairwise_filterMap.mpr ((ascending.filter _).imp fun {m n} less s read t read' => ?_)
    rwa [← Text.read?_eq_some_iff.mp read, ← Text.read?_eq_some_iff.mp read', Text.encode_lt_iff] at less
  · intro s hs
    obtain ⟨n, hn, read⟩ := List.mem_filterMap.mp hs
    exact Text.read?_eq_some_iff.mp read ▸ proper n hn
  · rw [List.filter_map, List.filterMap_map, List.map_filterMap]
    refine List.filterMap_congr fun n hn => ?_
    rw [Function.comp_apply, dir.fileName?_join (proper n hn), Option.bind_some]
    cases read : Text.read? n with
    | none => rfl
    | some s => rw [Option.map_some, Option.map_some, Text.read?_eq_some_iff.mp read]

theorem tableDirectories_eq_ok (ordered : ListsInOrder files) {input : Path} {tables : List TableDirectory}
    (h : tableDirectories files input = .ok tables) :
    ∃ pairs : List (String × String), pairs.Pairwise (Prod.Lex (· < ·) (· < ·)) ∧
      (∀ p ∈ pairs, EntryName (Text.encode p.1) ∧ EntryName (Text.encode p.2)) ∧
      (∃ databases, subdirectories files input = .ok databases ∧ ∀ p ∈ pairs, p.1 ∈ databases.map (·.1)) ∧
      tables = pairs.map (tableAt input) := by
  obtain ⟨databases, found, h⟩ := bind_eq_ok h
  obtain ⟨names, ascending, proper, rfl⟩ := subdirectories_eq_ok ordered found
  obtain ⟨groups, made, flat⟩ := bind_eq_ok h
  suffices ∃ pairs : List (String × String), pairs.Pairwise (Prod.Lex (· < ·) (· < ·)) ∧
      (∀ p ∈ pairs, p.1 ∈ names ∧ EntryName (Text.encode p.2)) ∧ groups.flatten = pairs.map (tableAt input) by
    obtain ⟨pairs, sorted, members, same⟩ := this
    refine ⟨pairs, sorted, fun p hp => ⟨proper _ (members p hp).1, (members p hp).2⟩,
      ⟨_, found, fun p hp => ?_⟩, (Except.ok.inj flat).symm.trans same⟩
    rw [List.map_map]
    exact List.mem_map.mpr ⟨p.1, (members p hp).1, rfl⟩
  have each := mapM_eq_ok_iff.mp made
  rw [List.forall₂_map_left_iff] at each
  clear made flat found h proper
  -- the tables of one database come before those of the next
  induction each with
  | nil => exact ⟨[], List.Pairwise.nil, List.forall_mem_nil _, rfl⟩
  | @cons name group names groups first _ ih =>
    obtain ⟨above, ascending⟩ := List.pairwise_cons.mp ascending
    obtain ⟨pairs, sorted, members, same⟩ := ih ascending
    obtain ⟨subs, listed, first⟩ := bind_eq_ok first
    obtain ⟨tables, tablesAscending, proper, rfl⟩ := subdirectories_eq_ok ordered listed
    refine ⟨tables.map (name, ·) ++ pairs, List.pairwise_append.mpr ⟨?_, sorted, ?_⟩, ?_, ?_⟩
    · exact List.pairwise_map.mpr (tablesAscending.imp fun less => Prod.Lex.right _ less)
    · intro p hp q hq
      obtain ⟨table, -, rfl⟩ := List.mem_map.mp hp
      exact Prod.lex_def.mpr (Or.inl (above _ (members q hq).1))
    · intro p hp
      obtain here | later := List.mem_append.mp hp
      · obtain ⟨table, ht, rfl⟩ := List.mem_map.mp here
        exact ⟨List.mem_cons_self .., proper table ht⟩
      · exact ⟨List.mem_cons_of_mem _ (members p later).1, (members p later).2⟩
    · rw [List.flatten_cons, same, ← Except.ok.inj first, List.map_append, List.map_map, List.map_map]
      rfl

end

def TableScripts.scriptsOf? (t : TableScripts) (mode : Mode) (u : UnitKey) : Option (List Path) :=
  if t.table.name = u.task then Ordered.find? u.unit (t.units mode u.action) else none

structure TableScripts.FoundIn {φ : Type} [FileSystem φ] (files : φ) (plan : Plan) (t : TableScripts) :
    Prop where
  gated : t.byAction.map (·.1) = plan.gated
  listed : ∀ p ∈ t.byAction, scriptsIn files (t.table.path.join p.1.name) = .ok p.2

namespace TableScripts.FoundIn

variable {φ : Type} [FileSystem φ] {files : φ} {plan : Plan} {t : TableScripts} (found : t.FoundIn files plan)
include found

theorem nodup : (t.byAction.map (·.1)).Nodup := by
  rw [found.gated, Plan.gated]
  exact (plan.ascending.imp fun h he => by rw [he] at h; exact Nat.lt_irrefl _ h).filter _

theorem scripts_of_mem {a : Action} {scripts : List Path} (h : (a, scripts) ∈ t.byAction) :
    t.scripts a = scripts := by
  unfold TableScripts.scripts
  cases read : t.byAction.lookup a with
  | none => simpa using List.lookup_eq_none_iff.mp read _ h
  | some other =>
    obtain ⟨before, after, split, -⟩ := List.lookup_eq_some_iff.mp read
    have there : (a, other) ∈ t.byAction := by
      rw [split]
      simp
    exact (Prod.mk.inj (List.inj_on_of_nodup_map found.nodup there h rfl)).2

theorem scriptsIn_eq {a : Action} (ha : a ∈ plan.gated) :
    scriptsIn files (t.table.path.join a.name) = .ok (t.scripts a) := by
  obtain ⟨p, hp, rfl⟩ := List.mem_map.mp (found.gated ▸ ha)
  rw [found.scripts_of_mem hp]
  exact found.listed p hp

theorem mem_entries {mode : Mode} {u : UnitKey} {own : List Path} :
    (u, own) ∈ t.entries mode ↔ u.task = t.table.name ∧ (u.unit, own) ∈ t.units mode u.action := by
  unfold entries tableEntries
  constructor
  · intro h
    obtain ⟨q, hq, h⟩ := List.mem_flatMap.mp h
    obtain ⟨p, hp, rfl⟩ := List.mem_map.mp hq
    obtain ⟨unit, hu, same⟩ := List.mem_map.mp h
    obtain ⟨rfl, rfl⟩ := Prod.mk.inj same
    refine ⟨rfl, ?_⟩
    rw [units, found.scripts_of_mem hp]
    exact hu
  · rintro ⟨name, h⟩
    cases read : t.byAction.lookup u.action with
    | none => simp [units, scripts, read, groupScripts] at h
    | some scripts =>
      obtain ⟨before, after, split, -⟩ := List.lookup_eq_some_iff.mp read
      refine List.mem_flatMap.mpr ⟨(u.action, groupScripts mode scripts), ?_, ?_⟩
      · rw [split]
        simp
      · refine List.mem_map.mpr ⟨(u.unit, own), ?_, ?_⟩
        · simpa [units, TableScripts.scripts, read] using h
        · rw [← name]

theorem scripts?_insertAll {mode : Mode} (c : ScriptIndex) (u : UnitKey) :
    (c.insertAll (t.entries mode)).scripts? u = (t.scriptsOf? mode u).or (c.scripts? u) := by
  have nodup : ((t.units mode u.action).map (·.1)).Nodup :=
    (groupScripts_ascending mode _).imp String.ne_of_lt
  rw [scriptsOf?]
  by_cases name : t.table.name = u.task
  · rw [if_pos name]
    cases group : Ordered.find? u.unit (t.units mode u.action) with
    | none =>
      refine ScriptIndex.scripts?_insertAll_of_not_mem fun scripts h => ?_
      rw [(Ordered.find?_eq_some_iff nodup).mpr (found.mem_entries.mp h).2] at group
      cases group
    | some own =>
      have mem := (Ordered.find?_eq_some_iff nodup).mp group
      refine ScriptIndex.scripts?_insertAll_of_mem (found.mem_entries.mpr ⟨name.symm, mem⟩) fun other h => ?_
      have again := (Ordered.find?_eq_some_iff nodup).mpr (found.mem_entries.mp h).2
      exact Option.some.inj (again.symm.trans group)
  · rw [if_neg name]
    exact ScriptIndex.scripts?_insertAll_of_not_mem fun scripts h => name (found.mem_entries.mp h).1.symm

end TableScripts.FoundIn

/-- A unit has the scripts of the last table that gives it any. -/
theorem scripts?_entries {φ : Type} [FileSystem φ] {files : φ} {plan : Plan} {mode : Mode}
    {tables : List TableScripts} (found : ∀ t ∈ tables, t.FoundIn files plan) (u : UnitKey) :
    (ScriptIndex.empty.insertAll (tables.flatMap (·.entries mode))).scripts? u =
      tables.reverse.findSome? (·.scriptsOf? mode u) := by
  induction tables using List.reverseRecOn with
  | nil => rfl
  | append_singleton tables last ih =>
    obtain ⟨earlier, here⟩ := List.forall_mem_append.mp found
    rw [List.flatMap_append, List.flatMap_singleton, ScriptIndex.insertAll_append,
      (List.forall_mem_singleton.mp here).scripts?_insertAll, List.reverse_append, List.reverse_singleton,
      List.singleton_append, List.findSome?_cons, ← ih earlier]
    cases last.scriptsOf? mode u <;> rfl

namespace ScriptTree

variable {φ : Type} [FileSystem φ] {f : ScriptTree φ} {plan : Plan} {tables : List TableScripts}

theorem layout_eq_ok (ordered : ListsInOrder f.files) (h : f.layout plan = .ok tables) :
    ∃ pairs : List (String × String), pairs.Pairwise (Prod.Lex (· < ·) (· < ·)) ∧
      (∀ p ∈ pairs, EntryName (Text.encode p.1) ∧ EntryName (Text.encode p.2)) ∧
      (∃ databases, subdirectories f.files f.inputDirectory = .ok databases ∧
        ∀ p ∈ pairs, p.1 ∈ databases.map (·.1)) ∧
      tables.map (·.table) = pairs.map (tableAt f.inputDirectory) ∧
      (∀ p ∈ pairs, f.isMapped (tableAt f.inputDirectory p).name = true) ∧
      ∀ t ∈ tables, t.FoundIn f.files plan := by
  obtain ⟨-, directories, listed, made⟩ := overTables_eq_ok_iff.mp h
  obtain ⟨pairs, sorted, proper, ⟨databases, read, among⟩, rfl⟩ := tableDirectories_eq_ok ordered listed
  have at_tables : tables.map (·.table) = _ :=
    map_of_mapM (fun _ _ read => (tableScripts_eq_ok (mapError_eq_ok read)).1) made
  rw [List.filter_map] at at_tables
  refine ⟨pairs.filter fun p => f.isMapped (tableAt f.inputDirectory p).name, sorted.filter _,
    fun p hp => proper p (List.mem_of_mem_filter hp),
    ⟨databases, read, fun p hp => among p (List.mem_of_mem_filter hp)⟩, at_tables,
    fun p hp => (List.mem_filter.mp hp).2, fun t ht => ?_⟩
  obtain ⟨table, -, made⟩ := exists_related_of_mem (mapM_eq_ok_iff.mp made) ht
  obtain ⟨rfl, gated, listed⟩ := tableScripts_eq_ok (mapError_eq_ok made)
  exact ⟨gated, listed⟩

theorem scripts?_of_layout {mode : Mode} {t : TableScripts} (found : ∀ t ∈ tables, t.FoundIn f.files plan)
    (unique : (tables.map (·.table.name)).Nodup) (ht : t ∈ tables) (a : Action) (id : String) :
    (ScriptIndex.empty.insertAll (tables.flatMap (·.entries mode))).scripts? ⟨t.table.name, a, id⟩ =
      Ordered.find? id (t.units mode a) := by
  have only : ∀ t' ∈ tables.reverse, t' = t ∨ t'.scriptsOf? mode ⟨t.table.name, a, id⟩ = none := by
    intro t' ht'
    by_cases same : t'.table.name = t.table.name
    · exact Or.inl (List.inj_on_of_nodup_map unique (List.mem_reverse.mp ht') ht same)
    · exact Or.inr (if_neg same)
  rw [scripts?_entries found, findSome?_of_only (List.mem_reverse.mpr ht) only, TableScripts.scriptsOf?,
    if_pos rfl]

end ScriptTree

end TableMigration
