import TableMigration.Proofs.Jobs
import TableMigration.Proofs.Stores
import TableMigration.Script.Tree

/-!
# Generated work can be dispatched

A group of scripts is never empty, and the ids of the groups are at once the keys of the index and the
seeds of the task. The index is written over by later generations, of the same tables in another mode or
of tables whose names run together, but a key that it has it keeps, and the scripts that come in place
of others are some scripts too. So every unit that was ever generated has scripts, and a runner.
-/

namespace TableMigration

/-! ## The index -/

namespace ScriptIndex

theorem insertAll_append (c : ScriptIndex) (before after : List (UnitKey × List Path)) :
    c.insertAll (before ++ after) = (c.insertAll before).insertAll after :=
  List.foldl_append

def Supplies (c : ScriptIndex) (u : UnitKey) : Prop :=
  ∃ scripts, scripts ≠ [] ∧ c.scripts? u = some scripts

theorem scripts?_insert (c : ScriptIndex) (key : UnitKey) (scripts : List Path) (u : UnitKey) :
    (c.insert key scripts).scripts? u = if u = key then some scripts else c.scripts? u :=
  lookup_put key u scripts c.entries

theorem Supplies.insertAll {c : ScriptIndex} {u : UnitKey} {entries : List (UnitKey × List Path)}
    (filled : ∀ e ∈ entries, e.2 ≠ []) (h : c.Supplies u ∨ u ∈ entries.map (·.1)) :
    (c.insertAll entries).Supplies u := by
  induction entries generalizing c with
  | nil => exact h.resolve_right List.not_mem_nil
  | cons e entries ih =>
    obtain ⟨head, rest⟩ := List.forall_mem_cons.mp filled
    refine ih rest ?_
    by_cases same : u = e.1
    · exact Or.inl ⟨e.2, head, by rw [scripts?_insert, if_pos same]⟩
    · rw [List.map_cons, List.mem_cons] at h
      obtain ⟨scripts, some_, found⟩ | here | later := h
      · exact Or.inl ⟨scripts, some_, by rw [scripts?_insert, if_neg same, found]⟩
      · exact absurd here same
      · exact Or.inr later

end ScriptIndex

/-! ## Groups of scripts -/

theorem Ordered.forall_mem_alter {κ α : Type} [LT κ] [DecidableLT κ] [DecidableEq κ] {P : κ × α → Prop}
    {k : κ} {f : Option α → α} (changed : ∀ had, P (k, f had)) {xs : List (κ × α)} (h : ∀ e ∈ xs, P e) :
    ∀ e ∈ Ordered.alter k f xs, P e := by
  induction xs with
  | nil => exact List.forall_mem_singleton.mpr (changed none)
  | cons x xs ih =>
    obtain ⟨head, rest⟩ := List.forall_mem_cons.mp h
    unfold Ordered.alter
    split
    · exact List.forall_mem_cons.mpr ⟨changed none, h⟩
    · split
      next same => exact List.forall_mem_cons.mpr ⟨same ▸ changed (some x.2), rest⟩
      next => exact List.forall_mem_cons.mpr ⟨head, ih rest⟩

theorem groupScripts_filled (mode : Mode) (scripts : List Path) :
    ∀ e ∈ groupScripts mode scripts, e.2 ≠ [] := by
  unfold groupScripts
  refine List.foldlRecOn scripts _ (motive := fun units : UnitScripts => ∀ e ∈ units, e.2 ≠ [])
    (List.forall_mem_nil _) fun units h script _ => ?_
  split
  · exact Ordered.forall_mem_alter (fun had => by simp) h
  · exact h

section
variable {φ : Type} [FileSystem φ] {files : φ} {mode : Mode}

theorem unitsIn_filled {dir : Path} {units : UnitScripts} (h : unitsIn files mode dir = .ok units) :
    ∀ e ∈ units, e.2 ≠ [] := by
  unfold unitsIn at h
  split at h
  · obtain ⟨entries, -, grouped⟩ := bind_eq_ok h
    cases grouped
    exact groupScripts_filled mode _
  · cases h
    exact List.forall_mem_nil _

def tableDirectories (files : φ) (input : Path) : Except FileError (List TableDirectory) := do
  let databases ← subdirectories files input
  return (← databases.mapM (tablesIn files)).flatten

def unitsByAction (files : φ) (mode : Mode) (plan : Plan) (table : Path) :
    Except FileError (List (Action × UnitScripts)) :=
  plan.gated.mapM fun a => (unitsIn files mode (table.join a.name)).map (a, ·)

theorem unitsByAction_filled {plan : Plan} {table : Path} {found : List (Action × UnitScripts)}
    (h : unitsByAction files mode plan table = .ok found) : ∀ p ∈ found, ∀ e ∈ p.2, e.2 ≠ [] := by
  intro p hp
  obtain ⟨a, -, made⟩ := exists_related_of_mem (mapM_eq_ok_iff.mp h) hp
  obtain ⟨units, listed, rfl⟩ := map_eq_ok made
  exact unitsIn_filled listed

end

/-! ## Tasks and their entries -/

def tableEntries (task : String) (found : List (Action × UnitScripts)) : List (UnitKey × List Path) :=
  found.flatMap fun (a, units) => indexEntries task a units

section
variable {found : List (Action × UnitScripts)}

theorem tableEntries_filled (filled : ∀ p ∈ found, ∀ e ∈ p.2, e.2 ≠ []) (task : String) :
    ∀ e ∈ tableEntries task found, e.2 ≠ [] := by
  intro e he
  obtain ⟨p, hp, he⟩ := List.mem_flatMap.mp he
  obtain ⟨unit, hu, rfl⟩ := List.mem_map.mp he
  exact filled p hp unit hu

theorem mem_tableEntries {a : Action} {ids : List String} (seeded : seedsOf found a = some ids)
    {id : String} (hid : id ∈ ids) (task : String) : ⟨task, a, id⟩ ∈ (tableEntries task found).map (·.1) := by
  obtain ⟨units, read, rfl⟩ := Option.map_eq_some_iff.mp seeded
  obtain ⟨before, after, split, -⟩ := List.lookup_eq_some_iff.mp read
  obtain ⟨unit, hu, rfl⟩ := List.mem_map.mp hid
  refine List.mem_map.mpr ⟨(⟨task, a, unit.1⟩, unit.2), List.mem_flatMap.mpr ⟨(a, units), ?_, ?_⟩, rfl⟩
  · rw [split]
    simp
  · exact List.mem_map.mpr ⟨unit, hu, rfl⟩

end

theorem Task.seeded_of_ofPlan {name : String} {plan : Plan} {seeds : PerAction (List String)} {t : Task}
    (h : ofPlan name plan seeds = .ok t) {s : Stage} (hs : s ∈ t.stages) {u : WorkUnit}
    (hu : u ∈ s.units) : s.action.isCompare = false ∧ ∃ ids, seeds s.action = some ids ∧ u.id ∈ ids := by
  obtain ⟨stages, rfl, made⟩ := ofPlan_eq_ok h
  obtain ⟨a, -, seeded⟩ := exists_related_of_mem made hs
  unfold seedStage at seeded
  cases given : seeds a with
  | none =>
    by_cases compare : a.isCompare = true
    · simp only [given, compare, if_true, Except.ok.injEq] at seeded
      rw [← seeded] at hu
      cases hu
    · simp [given, compare] at seeded
  | some ids =>
    by_cases compare : a.isCompare = true
    · simp [given, compare] at seeded
    · simp only [given, compare, if_false, Except.ok.injEq, Bool.false_eq_true] at seeded
      rw [← seeded] at hu ⊢
      obtain ⟨id, hid, rfl⟩ := List.mem_map.mp hu
      exact ⟨Bool.not_eq_true _ ▸ compare, ids, given, Ordered.mem_ofKeys.mp hid⟩

/-! ## What a generation adds to the index -/

namespace Generating

variable {α β : Type}

theorem run_bind_ok {act : Generating α} {index index' : ScriptIndex} {a : α}
    (ran : act.run.run index = (.ok a, index')) (next : α → Generating β) :
    (act >>= next).run.run index = (next a).run.run index' := by
  rw [ExceptT.run_bind, StateT.run_bind, ran]
  rfl

theorem run_bind_error {act : Generating α} {index index' : ScriptIndex} {e : Error}
    (ran : act.run.run index = (.error e, index')) (next : α → Generating β) :
    (act >>= next).run.run index = (.error e, index') := by
  rw [ExceptT.run_bind, StateT.run_bind, ran]
  rfl

/-- From any index the part ends as `found` says, and if it succeeds it has added the entries found. -/
def Gathers (act : Generating α) (found : Except Error (α × List (UnitKey × List Path))) : Prop :=
  ∀ index,
    (∃ a entries, found = .ok (a, entries) ∧ act.run.run index = (.ok a, index.insertAll entries)) ∨
    ∃ e left, found = .error e ∧ act.run.run index = (.error e, left)

theorem gathers_pure (a : α) : Gathers (pure a) (.ok (a, [])) :=
  fun _ => Or.inl ⟨a, [], rfl, rfl⟩

theorem gathers_throw (e : Error) : Gathers (throw e : Generating α) (.error e) :=
  fun index => Or.inr ⟨e, index, rfl, rfl⟩

theorem gathers_of (result : Except Error α) : Gathers (of result) (result.map (·, [])) := by
  intro index
  cases result with
  | error e => exact gathers_throw e index
  | ok a => exact gathers_pure a index

theorem gathers_add (entries : List (UnitKey × List Path)) : Gathers (add entries) (.ok ((), entries)) :=
  fun _ => Or.inl ⟨(), entries, rfl, rfl⟩

theorem Gathers.congr {act : Generating α} {found found' : Except Error (α × List (UnitKey × List Path))}
    (h : Gathers act found) (same : found = found') : Gathers act found' :=
  same ▸ h

theorem Gathers.bind {act : Generating α} {next : α → Generating β}
    {found : Except Error (α × List (UnitKey × List Path))}
    {later : α → Except Error (β × List (UnitKey × List Path))}
    (first : Gathers act found) (rest : ∀ a, Gathers (next a) (later a)) :
    Gathers (act >>= next) (found >>= fun a => (later a.1).map fun b => (b.1, a.2 ++ b.2)) := by
  intro index
  obtain ⟨a, entries, rfl, ran⟩ | ⟨e, left, rfl, ran⟩ := first index
  · rw [run_bind_ok ran]
    obtain ⟨b, more, had, ran⟩ | ⟨e, left, had, ran⟩ := rest a (index.insertAll entries)
    · refine Or.inl ⟨b, entries ++ more, ?_, by rw [ran, ScriptIndex.insertAll_append]⟩
      change (later a).map _ = _
      rw [had]
      rfl
    · refine Or.inr ⟨e, left, ?_, ran⟩
      change (later a).map _ = _
      rw [had]
      rfl
  · exact Or.inr ⟨e, left, rfl, run_bind_error ran next⟩

theorem Gathers.mapM {γ : Type} {act : γ → Generating α} {found : γ → Except Error (α × List (UnitKey × List Path))}
    (each : ∀ x, Gathers (act x) (found x)) (xs : List γ) :
    Gathers (xs.mapM act) ((xs.mapM found).map fun built => (built.map (·.1), built.flatMap (·.2))) := by
  induction xs with
  | nil => exact gathers_pure []
  | cons x xs ih =>
    rw [List.mapM_cons, List.mapM_cons]
    refine ((each x).bind fun a => ih.bind fun rest => gathers_pure (a :: rest)).congr ?_
    cases found x with
    | error e => rfl
    | ok first =>
      cases xs.mapM found with
      | error e => rfl
      | ok built =>
        change Except.ok _ = Except.ok _
        simp

end Generating

namespace ScriptTree

variable {φ : Type} [FileSystem φ] {f f' : ScriptTree φ} {plan : Plan} {mode : Mode}

def taskOf (f : ScriptTree φ) (plan : Plan) (mode : Mode) (table : TableDirectory) :
    Except Error (Task × List (UnitKey × List Path)) := do
  let found ← (unitsByAction f.files mode plan table.path).mapError .file
  let task ← (Task.ofPlan table.name plan (seedsOf found)).mapError .plan
  return (f.direct task, tableEntries table.name found)

def inDatabase {β : Type} (f : ScriptTree φ) (found : TableDirectory → Except Error β)
    (database : String × Path) : Except Error (List β) := do
  let tables ← (tablesIn f.files database).mapError .file
  (tables.filter fun t => f.isMapped t.name).mapM found

def overTables {β : Type} (f : ScriptTree φ) (found : TableDirectory → Except Error β) :
    Except Error (List β) := do
  if !FileSystem.isDirectory f.files f.inputDirectory then
    throw (.inputDirectory f.inputDirectory)
  let databases ← (subdirectories f.files f.inputDirectory).mapError .file
  return (← databases.mapM (f.inDatabase found)).flatten

theorem buildTask_gathers (f : ScriptTree φ) (plan : Plan) (mode : Mode) (table : TableDirectory) :
    Generating.Gathers (f.buildTask plan mode table) (f.taskOf plan mode table) := by
  -- the entries of an action are told by its units
  let entries (p : Action × UnitScripts) := indexEntries table.name p.1 p.2
  have units : ∀ a : Action, Generating.Gathers (do
      let units ← Generating.of ((unitsIn f.files mode (table.path.join a.name)).mapError .file)
      Generating.add (indexEntries table.name a units)
      return (a, units))
      ((((unitsIn f.files mode (table.path.join a.name)).map (a, ·)).mapError .file).map
        fun p => (p, entries p)) := by
    intro a
    refine ((Generating.gathers_of _).bind fun units =>
      (Generating.gathers_add _).bind fun _ => Generating.gathers_pure (a, units)).congr ?_
    cases unitsIn f.files mode (table.path.join a.name) with
    | error e => rfl
    | ok units =>
      change Except.ok _ = Except.ok _
      simp [entries]
  refine ((Generating.Gathers.mapM units plan.gated).bind fun found =>
    (Generating.gathers_of _).bind fun task => Generating.gathers_pure (f.direct task)).congr ?_
  rw [mapM_map, mapM_mapError, taskOf, unitsByAction]
  cases plan.gated.mapM fun a => (unitsIn f.files mode (table.path.join a.name)).map (a, ·) with
  | error e => rfl
  | ok found =>
    have plain : (found.map fun p => (p, entries p)).map (·.1) = found := by simp [Function.comp_def]
    change Except.bind (Except.ok _) _ = Except.bind (Except.ok _) _
    dsimp only [Except.bind]
    rw [plain]
    cases Task.ofPlan table.name plan (seedsOf found) with
    | error e => rfl
    | ok task =>
      change Except.ok _ = Except.ok _
      simp [tableEntries, List.flatMap_map, entries]

theorem buildTasks_gathers (f : ScriptTree φ) (plan : Plan) (mode : Mode) :
    Generating.Gathers (f.buildTasks plan mode) ((f.overTables (f.taskOf plan mode)).map fun built =>
      (built.map (·.1), built.flatMap (·.2))) := by
  have group : ∀ database : String × Path, Generating.Gathers (do
      let tables ← Generating.of ((tablesIn f.files database).mapError .file)
      (tables.filter fun t => f.isMapped t.name).mapM (f.buildTask plan mode))
      ((f.inDatabase (f.taskOf plan mode) database).map fun built =>
        (built.map (·.1), built.flatMap (·.2))) := by
    intro database
    unfold inDatabase
    refine ((Generating.gathers_of _).bind fun tables =>
      Generating.Gathers.mapM (f.buildTask_gathers plan mode) _).congr ?_
    cases (tablesIn f.files database).mapError Error.file with
    | error e => rfl
    | ok tables =>
      change Except.map _ (Except.map _ (List.mapM (f.taskOf plan mode) _)) =
        Except.map _ (List.mapM (f.taskOf plan mode) _)
      cases (tables.filter fun t => f.isMapped t.name).mapM (f.taskOf plan mode) <;> rfl
  unfold buildTasks overTables
  split
  · exact Generating.gathers_throw _
  · refine ((Generating.gathers_of _).bind fun databases => (Generating.Gathers.mapM group databases).bind
      fun built => Generating.gathers_pure built.flatten).congr ?_
    cases (subdirectories f.files f.inputDirectory).mapError Error.file with
    | error e => rfl
    | ok databases =>
      change Except.map _ (Except.map _ (List.mapM (fun d => Except.map _ (f.inDatabase _ d)) databases) >>= _) =
        Except.map _ (List.mapM (f.inDatabase _) databases >>= _)
      rw [mapM_map]
      cases databases.mapM (f.inDatabase (f.taskOf plan mode)) with
      | error e => rfl
      | ok groups =>
        change Except.ok _ = Except.ok _
        simp [List.map_flatten, List.flatMap_def, List.flatten_flatten, Function.comp_def]

/-- A generation ends as its parts do, and the index has the entries of all of them if it succeeds. -/
theorem tasks_eq_overTables (f : ScriptTree φ) (plan : Plan) (mode : Mode) :
    f.tasks plan mode = (f.overTables (f.taskOf plan mode)).map fun built =>
      ({ f with index := f.index.insertAll (built.flatMap (·.2)) }, built.map (·.1)) := by
  unfold tasks generate
  obtain ⟨a, entries, found, ran⟩ | ⟨e, left, found, ran⟩ := f.buildTasks_gathers plan mode f.index
  · obtain ⟨built, visited, same⟩ := map_eq_ok found
    cases same
    rw [ran, visited]
    rfl
  · rw [ran]
    cases visited : f.overTables (f.taskOf plan mode) with
    | error e' => rw [visited] at found; cases found; rfl
    | ok built => rw [visited] at found; cases found

section
variable {β : Type} {found : TableDirectory → Except Error β} {built : List β}

theorem mapM_inDatabase_eq_ok_iff {databases : List (String × Path)} :
    (databases.mapM (f.inDatabase found)).map List.flatten = .ok built ↔
      ∃ groups, databases.mapM (tablesIn f.files) = .ok groups ∧
        (groups.flatten.filter fun t => f.isMapped t.name).mapM found = .ok built := by
  let kept (tables : List TableDirectory) := tables.filter fun t => f.isMapped t.name
  have each : ∀ database, f.inDatabase found database =
      ((tablesIn f.files database).map kept).mapError .file >>= List.mapM found := by
    intro database
    unfold inDatabase
    cases tablesIn f.files database <;> rfl
  rw [funext each, mapM_flatten_eq_ok_iff, mapM_mapError, mapM_map]
  cases databases.mapM (tablesIn f.files) with
  | error e => constructor <;> rintro ⟨_, ⟨⟩, _⟩
  | ok groups =>
    constructor
    · rintro ⟨_, ⟨⟩, made⟩
      exact ⟨groups, rfl, by rwa [List.filter_flatten]⟩
    · rintro ⟨_, ⟨⟩, made⟩
      exact ⟨groups.map kept, rfl, by rwa [List.filter_flatten] at made⟩

theorem overTables_eq_ok_iff : f.overTables found = .ok built ↔
    FileSystem.isDirectory f.files f.inputDirectory = true ∧
    ∃ tables, tableDirectories f.files f.inputDirectory = .ok tables ∧
      (tables.filter fun t => f.isMapped t.name).mapM found = .ok built := by
  unfold overTables tableDirectories
  cases FileSystem.isDirectory f.files f.inputDirectory with
  | false => exact ⟨fun made => (nomatch made), fun there => (nomatch there.1)⟩
  | true =>
    cases subdirectories f.files f.inputDirectory with
    | error e => exact ⟨fun made => (nomatch made), fun ⟨_, _, listed, _⟩ => (nomatch listed)⟩
    | ok databases =>
      constructor
      · intro made
        obtain ⟨groups, listed, made⟩ := mapM_inDatabase_eq_ok_iff.mp made
        exact ⟨rfl, groups.flatten, congrArg (Except.map List.flatten) listed, made⟩
      · rintro ⟨-, tables, all, made⟩
        obtain ⟨groups, listed, rfl⟩ := map_eq_ok all
        exact mapM_inDatabase_eq_ok_iff.mpr ⟨groups, listed, made⟩

end

theorem taskOf_eq_ok {table : TableDirectory} {t : Task} {entries : List (UnitKey × List Path)}
    (h : f.taskOf plan mode table = .ok (t, entries)) : t.Fresh ∧ (∀ e ∈ entries, e.2 ≠ []) ∧
      ∀ s ∈ t.stages, ∀ u ∈ s.units,
        s.action.isCompare = false ∧ ⟨t.name, s.action, u.id⟩ ∈ entries.map (·.1) := by
  obtain ⟨found, grouped, h⟩ := bind_eq_ok h
  obtain ⟨u, made, h⟩ := bind_eq_ok h
  obtain ⟨named, rfl⟩ := Prod.mk.inj (Except.ok.inj h)
  have grouped := unitsByAction_filled (mapError_eq_ok grouped)
  have made := mapError_eq_ok made
  have bare : { t with destination := none } = u ∧ t.name = table.name := by
    obtain ⟨stages, rfl, -⟩ := Task.ofPlan_eq_ok made
    rw [← named]
    unfold direct
    split <;> exact ⟨rfl, rfl⟩
  obtain ⟨rfl, name⟩ := bare
  refine ⟨⟨plan, seedsOf found, name ▸ made⟩, tableEntries_filled grouped _, fun s hs u hu => ?_⟩
  obtain ⟨gated, ids, seeded, hid⟩ := Task.seeded_of_ofPlan made hs hu
  exact ⟨gated, name ▸ mem_tableEntries seeded hid t.name⟩

end ScriptTree

/-- Each unit of the task has scripts in the index, and is none of the compare stage. -/
def Task.Supplied (index : ScriptIndex) (t : Task) : Prop :=
  ∀ s ∈ t.stages, ∀ u ∈ s.units,
    s.action.isCompare = false ∧ index.Supplies ⟨t.name, s.action, u.id⟩

/-- Successful generations on one tree, with all the tasks they have made. The files may change from
one to the next. -/
inductive Generated {φ : Type} [FileSystem φ] (first : ScriptTree φ) : ScriptTree φ → List Task → Prop
  | start : Generated first first []
  | next {f f' : ScriptTree φ} {ts ts' : List Task} (earlier : Generated first f ts) (files : φ)
      {plan : Plan} {mode : Mode} (made : { f with files }.tasks plan mode = .ok (f', ts')) :
      Generated first f' (ts ++ ts')

section
variable {φ : Type} [FileSystem φ] {f f' : ScriptTree φ} {plan : Plan} {mode : Mode} {ts : List Task}

theorem ScriptTree.tasks_supplied (h : f.tasks plan mode = .ok (f', ts)) :
    (∀ t ∈ ts, t.Fresh ∧ t.Supplied f'.index) ∧ ∀ u, f.index.Supplies u → f'.index.Supplies u := by
  rw [tasks_eq_overTables] at h
  obtain ⟨built, visited, same⟩ := map_eq_ok h
  obtain ⟨rfl, rfl⟩ := Prod.mk.inj same
  obtain ⟨-, tables, -, made⟩ := overTables_eq_ok_iff.mp visited
  have each : ∀ b ∈ built, ∃ table, f.taskOf plan mode table = .ok b := by
    intro b hb
    obtain ⟨table, -, made⟩ := exists_related_of_mem (mapM_eq_ok_iff.mp made) hb
    exact ⟨table, made⟩
  have filled : ∀ e ∈ built.flatMap (·.2), e.2 ≠ [] := by
    intro e he
    obtain ⟨b, hb, he⟩ := List.mem_flatMap.mp he
    obtain ⟨table, made⟩ := each b hb
    exact (taskOf_eq_ok made).2.1 e he
  refine ⟨List.forall_mem_map.mpr fun b hb => ?_, fun u had => .insertAll filled (Or.inl had)⟩
  obtain ⟨table, made⟩ := each b hb
  obtain ⟨fresh, -, entered⟩ := taskOf_eq_ok made
  refine ⟨fresh, fun s hs u hu => ?_⟩
  obtain ⟨gated, mem⟩ := entered s hs u hu
  obtain ⟨e, he, same⟩ := List.mem_map.mp mem
  have listed : e ∈ built.flatMap (·.2) := List.mem_flatMap.mpr ⟨b, hb, he⟩
  exact ⟨gated, .insertAll filled (Or.inr (List.mem_map.mpr ⟨e, listed, same⟩))⟩

theorem Generated.again {first : ScriptTree φ} {ts' : List Task} (earlier : Generated first f ts)
    (made : f.tasks plan mode = .ok (f', ts')) : Generated first f' (ts ++ ts') :=
  .next earlier f.files made

theorem Generated.supplied (h : Generated f f' ts) : ∀ t ∈ ts, t.Fresh ∧ t.Supplied f'.index := by
  induction h with
  | start => exact List.forall_mem_nil _
  | next earlier files made ih =>
    obtain ⟨new, kept⟩ := ScriptTree.tasks_supplied made
    refine List.forall_mem_append.mpr ⟨fun t ht => ?_, new⟩
    obtain ⟨fresh, supplied⟩ := ih t ht
    exact ⟨fresh, fun s hs u hu => ⟨(supplied s hs u hu).1, kept _ (supplied s hs u hu).2⟩⟩

end

/-! ## Dispatching -/

theorem Action.exists_runner {a : Action} (gated : a.isCompare = false) (source : Source) :
    ∃ side, a.runner? source = some side := by
  cases a with
  | compareResults => cases gated
  | loadData => cases source <;> exact ⟨_, rfl⟩
  | _ => exact ⟨_, rfl⟩

theorem ScriptRunner.exists_commands {d : ScriptRunner} {u : UnitKey} (gated : u.action.isCompare = false)
    (supplied : d.index.Supplies u) : ∃ commands, d.commands? u = some commands := by
  obtain ⟨side, ran⟩ := Action.exists_runner gated d.plan.source
  obtain ⟨scripts, -, found⟩ := supplied
  refine ⟨scripts.map (d.runners.commandLine side), ?_⟩
  rw [commands?, Plan.runner?, ran, Option.bind_some, found, Option.map_some]

theorem Exchange.receipt_eq {ν : Type} [Validator ν] {counts : RowCounts} {k : Nat}
    {x y : Outside ScriptRunner ν} {ms : List Moment} (exchange : Exchange counts k x ms y) {h : Handle}
    {receipt : Receipt} (asked : .submit h receipt ∈ ms.map (·.request)) {commands : List String}
    (found : x.dispatcher.commands? h.toUnitKey = some commands) : receipt = .running := by
  induction exchange with
  | nil x => cases asked
  | submit served _ ih =>
    have takes := ScriptRunner.submit_takes served
    obtain here | later := List.mem_cons.mp asked
    · cases here
      exact congrArg Prod.snd (served.symm.trans (ScriptRunner.submit_eq_of_commands found))
    · exact ih later (takes.commands_eq ▸ found)
  | validate a subject judged _ ih =>
    obtain here | later := List.mem_cons.mp asked
    · cases here
    · exact ih later found

namespace Scheduler

theorem fault?_eq_none_of_supplied {σ ν : Type} [NameStore σ] [Validator ν] {tasks : List Task}
    {index : ScriptIndex} (supplied : ∀ t ∈ tasks, t.Fresh ∧ t.Supplied index) {plan : Plan} {gate : Gate}
    {log : FailoverLog σ} {d : ScriptRunner} {v : ν} {s : Scheduler σ ScriptRunner ν}
    (run : Reaches .any (.new plan tasks gate log d v) s) (shared : s.dispatcher.index = index) (c : Call)
    (calm : ∀ owner a payload, .validate owner a (.crashed payload) ∉ (s.moments c).map (·.request)) :
    s.fault? c = none := by
  have start := new_wellFormed (fun t ht => (supplied t ht).1) plan gate log d v
  have evolves := run.evolves start
  have wf := evolves.wellFormed start
  have units : population s.tasks = population tasks :=
    (evolves.population_eq start).trans (new_population ..)
  cases stopped : s.fault? c with
  | none => rfl
  | some fault =>
    have stops := perform_stops s wf c
    rw [stopped] at stops
    obtain ⟨before, h, e, requests, -⟩ := stops.refused_last calm
    have asked : .submit h (.refused e) ∈ (s.moments c).map (·.request) := by
      rw [requests]
      exact List.mem_append_right _ (List.mem_singleton_self _)
    obtain ⟨m, hm, same⟩ := List.mem_map.mp asked
    have submitted : h ∈ (s.moments c).filterMap (·.request.handle?) :=
      List.mem_filterMap.mpr ⟨m, hm, by rw [same]; rfl⟩
    -- whatever was refused is a unit of one of the tasks, with scripts and a runner
    have known := units ▸ mem_population_of_submitted s wf c submitted
    obtain ⟨t, at_h, name, b, hb, action, unit⟩ := mem_population.mp known
    obtain ⟨u, hu, id⟩ := List.mem_map.mp unit
    obtain ⟨gated, has⟩ := (supplied t (List.mem_of_getElem? at_h)).2 b hb u hu
    rw [action, id, ← name] at has
    obtain ⟨commands, found⟩ := s.dispatcher.exists_commands (action ▸ gated) (shared ▸ has)
    cases (perform_exchange s wf c).receipt_eq asked found

end Scheduler

/-- However often tasks are generated from one tree, in whichever modes and for whichever plans: each
unit of each of these tasks has scripts in the index that has become of it, and a warehouse to run them,
so that no runner with this index refuses it, and no call in any run over any of these tasks stops unless
a comparison crashes. -/
theorem Generated.dispatchable {φ : Type} [FileSystem φ] {first f : ScriptTree φ} {tasks : List Task}
    (generated : Generated first f tasks) :
    (∀ t ∈ tasks, ∀ s ∈ t.stages, ∀ u ∈ s.units,
      (∃ scripts, scripts ≠ [] ∧ f.index.scripts? ⟨t.name, s.action, u.id⟩ = some scripts) ∧
      (∀ source, ∃ side, s.action.runner? source = some side) ∧
      ∀ (d : ScriptRunner) (owner : Nat), d.index = f.index →
        (d.submit ⟨⟨t.name, s.action, u.id⟩, owner⟩).2 = .running) ∧
    ∀ {σ ν : Type} [NameStore σ] [Validator ν] {chosen : List Task}, (∀ t ∈ chosen, t ∈ tasks) →
      ∀ {plan : Plan} {gate : Gate} {log : FailoverLog σ} {d : ScriptRunner} {v : ν}
        {s : Scheduler σ ScriptRunner ν}, Scheduler.Reaches .any (.new plan chosen gate log d v) s →
        s.dispatcher.index = f.index → ∀ c : Scheduler.Call,
        (∀ owner a payload, .validate owner a (.crashed payload) ∉ (s.moments c).map (·.request)) →
        s.fault? c = none := by
  have supplied := generated.supplied
  refine ⟨fun t ht s hs u hu => ?_, ?_⟩
  · obtain ⟨gated, has⟩ := (supplied t ht).2 s hs u hu
    refine ⟨has, Action.exists_runner gated, fun d owner shared => ?_⟩
    obtain ⟨commands, found⟩ := d.exists_commands gated (shared ▸ has)
    rw [ScriptRunner.submit_eq_of_commands found]
  · intro σ ν _ _ chosen subset plan gate log d v s run shared c calm
    exact Scheduler.fault?_eq_none_of_supplied (fun t ht => supplied t (subset t ht)) run shared c calm

/-! ## One table in both modes -/

namespace TwoModes

def tree : Tree :=
  Tree.empty.addFile ⟨"in/db/t/create_table/a.sql"⟩ "create table t".toUTF8

def first : ScriptTree Tree := .new tree ⟨"in"⟩ none

def generate (f : ScriptTree Tree) (mode : Mode) : ScriptTree Tree × List Task :=
  match f.tasks OneTable.plan mode with
  | .ok made => made
  | .error _ => (f, [])

def last : ScriptTree Tree := (generate (generate first .single).1 .batch).1

def tasks : List Task :=
  [] ++ (generate first .single).2 ++ (generate (generate first .single).1 .batch).2

theorem generate_eq (f : ScriptTree Tree) (mode : Mode) (fine : (f.tasks OneTable.plan mode).toBool = true) :
    f.tasks OneTable.plan mode = .ok ((generate f mode).1, (generate f mode).2) := by
  unfold generate
  cases made : f.tasks OneTable.plan mode with
  | error e => rw [made] at fine; cases fine
  | ok made => rfl

theorem generated : Generated first last tasks := by
  have single := generate_eq first .single (by decide +kernel)
  have batch := generate_eq (generate first .single).1 .batch (by decide +kernel)
  exact (Generated.start.again single).again batch

/-- Both tasks at once, although they go by one name. -/
def start : Scheduler MemoryStore ScriptRunner FixedValidator :=
  .new OneTable.plan tasks (.uniform OneTable.plan 2) (.openOn ⟨[]⟩)
    (.new OneTable.plan ⟨"hive", "odps"⟩ last.index) ⟨[], [], []⟩

theorem start_index : start.dispatcher.index = last.index := by
  unfold start
  generalize last.index = index
  rfl

theorem dispatched :
    (start.moments .tick).map (·.request) =
      [.submit ⟨⟨"db.t", .createTable, "a"⟩, 0⟩ .running,
        .submit ⟨⟨"db.t", .createTable, "batch"⟩, 1⟩ .running] ∧
    start.fault? .tick = none := by
  have asked : (start.moments .tick).map (·.request) =
      [.submit ⟨⟨"db.t", .createTable, "a"⟩, 0⟩ .running,
        .submit ⟨⟨"db.t", .createTable, "batch"⟩, 1⟩ .running] := by decide +kernel
  have calm : ∀ owner a payload,
      .validate owner a (.crashed payload) ∉ (start.moments .tick).map (·.request) := by
    intro owner a payload
    rw [asked]
    simp
  exact ⟨asked, generated.dispatchable.2 (fun _ ht => ht) .refl start_index .tick calm⟩

end TwoModes

end TableMigration
