import TableMigration.Proofs.Reopening

/-!
# Records that are lost

A file can stop taking appends and take them again. A log records a name all the same, and knows it until it
is opened anew; only then does it show that the name never came to the file. So one name can be recorded
several times, but it is written once at most, and the file always holds the names that were new to their
log while the file took them.
-/

namespace TableMigration

inductive FileRequest
  | ask (r : LogRequest)
  | rejectAppends (on : Bool)
  deriving DecidableEq, Repr

/-- A request with its answer, and whether the file rejected appends by then. -/
structure FileEvent where
  request : FileRequest
  answer : Option Bool
  rejecting : Bool
  deriving DecidableEq, Repr

/-- The name that was written: one that was new to the log while the file took appends. -/
def FileEvent.written? : FileEvent → Option String
  | ⟨.ask (.record name), some true, false⟩ => some name
  | _ => none

def written (events : List FileEvent) : List String :=
  events.filterMap FileEvent.written?

/-- Of the names that were to be recorded since the log was opened, those that are so after one more
request. -/
def namesAfter (names : List String) : FileRequest → List String
  | .ask (.record name) => names ++ [name]
  | .ask .reopen => []
  | _ => names

def namesSince (requests : List FileRequest) : List String :=
  requests.foldl namesAfter []

namespace FailoverLog

def rejectAppends (log : FailoverLog (FileStore Tree)) (on : Bool) : FailoverLog (FileStore Tree) :=
  { log with store := { log.store with files := log.store.files.rejectAppends on } }

def serve (log : FailoverLog (FileStore Tree)) :
    FileRequest → FailoverLog (FileStore Tree) × Option Bool
  | .ask r => log.answer r
  | .rejectAppends on => (log.rejectAppends on, none)

def serveAll (log : FailoverLog (FileStore Tree)) :
    List FileRequest → FailoverLog (FileStore Tree) × List FileEvent
  | [] => (log, [])
  | r :: rs =>
    let (next, answer) := log.serve r
    let (last, events) := next.serveAll rs
    (last, ⟨r, answer, log.store.files.rejectsAppends⟩ :: events)

end FailoverLog

namespace FileStore

def taking (store : FileStore Tree) : FileStore Tree :=
  { store with files := store.files.rejectAppends false }

theorem taking_eq_self {store : FileStore Tree} (h : store.files.rejectsAppends = false) :
    store.taking = store := by
  obtain ⟨⟨entries, rejects⟩, path⟩ := store
  simp [taking, Tree.rejectAppends, show rejects = false from h]

theorem append_of_rejecting {store : FileStore Tree} (h : store.files.rejectsAppends = true)
    (name : String) : NameStore.append store name = (store, .error (.appendRejected store.path)) := by
  show ({ store with files := (store.files.appendLine store.path name).1 },
    (store.files.appendLine store.path name).2) = _
  rw [Tree.appendLine, if_pos h]

theorem append_of_taking {store : FileStore Tree} {names : List String}
    (h : Holds (.inr store) names) (name : String) : (NameStore.append store name).2 = .ok () := by
  show (store.files.appendLine store.path name).2 = .ok ()
  rw [Tree.appendLine, if_neg (by simp [h.1]), h.2]
  by_cases none : names = []
  · simp [none]
  · simp [none]

end FileStore

/-! ## What requests keep -/

namespace FailoverLog

variable {log : FailoverLog (FileStore Tree)} {names since : List String}

/-- The file holds `names`, and since it was opened the log was to record the names `since`. -/
structure Tracks (log : FailoverLog (FileStore Tree)) (names since : List String) : Prop where
  holds : Holds (.inr log.store.taking) names
  proper : ∀ n ∈ names, ProperName n
  nodup : names.Nodup
  recorded : ∀ n, n ∈ log.recorded ↔ n ∈ log.finished ∨ n ∈ since
  known : ∀ n ∈ names, n ∈ log.recorded

theorem mem_recorded_openOn {store : FileStore Tree} (holds : Holds (.inr store.taking) names)
    (proper : ∀ n ∈ names, ProperName n) {n : String} : n ∈ (openOn store).recorded ↔ n ∈ names :=
  -- a file that rejects appends is read as one that takes them
  holds.mem_recorded_iff proper

theorem tracks_openOn {store : FileStore Tree} (holds : Holds (.inr store.taking) names)
    (proper : ∀ n ∈ names, ProperName n) (nodup : names.Nodup) : Tracks (openOn store) names [] := by
  refine ⟨holds, proper, nodup, ?_, ?_⟩
  · intro n
    simp [openOn]
  · intro n hn
    exact (mem_recorded_openOn holds proper).mpr hn

theorem record_of_mem {name : String} (h : name ∈ log.recorded) : log.record name = (log, false) := by
  unfold record
  rw [if_pos (by simpa using h)]

theorem record_of_not_mem {name : String} (h : name ∉ log.recorded) :
    log.record name = ({ log with
      store := (NameStore.append log.store name).1
      recorded := log.recorded ++ [name] }, true) := by
  unfold record
  rw [if_neg (by simpa using h)]

theorem Tracks.record_eq_true_iff (h : log.Tracks names since) (name : String) :
    (log.record name).2 = true ↔ name ∉ log.finished ∧ name ∉ since := by
  rw [← not_or, ← h.recorded]
  by_cases known : name ∈ log.recorded
  · simp [record_of_mem known, known]
  · simp [record_of_not_mem known, known]

theorem Tracks.of_mem (h : log.Tracks names since) {name : String} (known : name ∈ log.recorded) :
    log.Tracks names (since ++ [name]) := by
  refine ⟨h.holds, h.proper, h.nodup, ?_, h.known⟩
  intro n
  rw [List.mem_append, List.mem_singleton, ← or_assoc, ← h.recorded]
  constructor
  · exact Or.inl
  · rintro (hn | rfl)
    · exact hn
    · exact known

theorem Tracks.lose (h : log.Tracks names since) (name : String) :
    Tracks { log with recorded := log.recorded ++ [name] } names (since ++ [name]) := by
  refine ⟨h.holds, h.proper, h.nodup, ?_, ?_⟩
  · intro n
    rw [List.mem_append, List.mem_append, h.recorded, or_assoc]
  · intro n hn
    exact List.mem_append_left _ (h.known n hn)

theorem Tracks.write (h : log.Tracks names since) (taking : log.store.files.rejectsAppends = false)
    {name : String} (proper : ProperName name) (new : name ∉ names) :
    Tracks { log with
      store := (NameStore.append log.store name).1
      recorded := log.recorded ++ [name] } (names ++ [name]) (since ++ [name]) := by
  have holds := h.holds
  rw [FileStore.taking_eq_self taking] at holds
  have wrote : Holds (.inr (NameStore.append log.store name).1) (names ++ [name]) := holds.append name
  refine ⟨?_, ?_, ?_, (h.lose name).recorded, ?_⟩
  · exact (FileStore.taking_eq_self wrote.1).symm ▸ wrote
  · exact List.forall_mem_append.mpr ⟨h.proper, List.forall_mem_singleton.mpr proper⟩
  · apply List.nodup_append.mpr
    refine ⟨h.nodup, List.nodup_singleton _, ?_⟩
    rintro n hn _ last rfl
    exact new (List.mem_singleton.mp last ▸ hn)
  · intro n hn
    obtain hn | hn := List.mem_append.mp hn
    · exact (h.lose name).known n hn
    · exact List.mem_append_right _ hn

theorem Tracks.record (h : log.Tracks names since) {name : String} (proper : ProperName name) :
    (log.record name).1.Tracks
      (names ++ (FileEvent.written? ⟨.ask (.record name), some (log.record name).2,
        log.store.files.rejectsAppends⟩).toList) (since ++ [name]) := by
  by_cases known : name ∈ log.recorded
  · rw [record_of_mem known]
    simp only [FileEvent.written?, Option.toList_none, List.append_nil]
    exact h.of_mem known
  · rw [record_of_not_mem known]
    by_cases rejecting : log.store.files.rejectsAppends = true
    · simp only [FileEvent.written?, rejecting, Option.toList_none, List.append_nil,
        FileStore.append_of_rejecting rejecting]
      exact h.lose name
    · have taking := Bool.not_eq_true _ ▸ rejecting
      simp only [FileEvent.written?, taking, Option.toList_some]
      exact h.write taking proper fun hn => known (h.known name hn)

theorem Tracks.rejectAppends (h : log.Tracks names since) (on : Bool) :
    (log.rejectAppends on).Tracks names since :=
  ⟨h.holds, h.proper, h.nodup, h.recorded, h.known⟩

theorem Tracks.serve (h : log.Tracks names since) (r : FileRequest)
    (proper : ∀ name, r = .ask (.record name) → ProperName name) :
    (log.serve r).1.Tracks
      (names ++ (FileEvent.written? ⟨r, (log.serve r).2, log.store.files.rejectsAppends⟩).toList)
      (namesAfter since r) := by
  cases r with
  | rejectAppends on =>
    simp only [FileEvent.written?, Option.toList_none, List.append_nil]
    exact h.rejectAppends on
  | ask r =>
    cases r with
    | record name => exact h.record (proper name rfl)
    | isFinished name =>
      simp only [FileEvent.written?, Option.toList_none, List.append_nil]
      exact h
    | reopen =>
      simp only [FileEvent.written?, Option.toList_none, List.append_nil]
      exact tracks_openOn h.holds h.proper h.nodup

theorem Tracks.serveAll (h : log.Tracks names since) (requests : List FileRequest)
    (proper : ∀ name, .ask (.record name) ∈ requests → ProperName name) :
    (log.serveAll requests).1.Tracks (names ++ written (log.serveAll requests).2)
      (requests.foldl namesAfter since) := by
  -- each request is served by the log that the ones before it have left
  induction requests generalizing log names since with
  | nil =>
    simp only [FailoverLog.serveAll, written, List.filterMap_nil, List.append_nil]
    exact h
  | cons r rs ih =>
    have first := h.serve r fun name same => proper name (same ▸ List.mem_cons_self ..)
    have rest := ih first fun name hn => proper name (List.mem_cons_of_mem _ hn)
    have events : written (log.serveAll (r :: rs)).2 =
        (FileEvent.written? ⟨r, (log.serve r).2, log.store.files.rejectsAppends⟩).toList ++
          written ((log.serve r).1.serveAll rs).2 := by
      simp only [FailoverLog.serveAll, written, List.filterMap_cons]
      cases FileEvent.written? ⟨r, (log.serve r).2, log.store.files.rejectsAppends⟩ <;> rfl
    rw [events, List.foldl_cons, ← List.append_assoc]
    exact rest

theorem serveAll_path (log : FailoverLog (FileStore Tree)) (requests : List FileRequest) :
    (log.serveAll requests).1.store.path = log.store.path := by
  induction requests generalizing log with
  | nil => rfl
  | cons r rs ih =>
    have kept : (log.serve r).1.store.path = log.store.path := by
      cases r with
      | rejectAppends on => rfl
      | ask r =>
        cases r with
        | record name =>
          show (log.record name).1.store.path = log.store.path
          unfold record
          split <;> rfl
        | isFinished name => rfl
        | reopen => rfl
    exact (ih (log.serve r).1).trans kept

/-- Starting without a file, whatever was recorded, however often the log was opened, and whenever the file
took appends: a record is new just if its name was neither finished when the log was opened nor recorded
since; an append fails just while appends are rejected, and then changes nothing; the file has a line for
each name that was new while it took appends, in order and none twice; and these names are known to a log
that is opened on it. -/
theorem lost_records {store : FileStore Tree} (absent : store.files.find? store.path.components = none)
    (requests : List FileRequest) (proper : ∀ name, .ask (.record name) ∈ requests → ProperName name) :
    let log := ((openOn store).serveAll requests).1
    let names := written ((openOn store).serveAll requests).2
    (∀ name, (log.record name).2 = true ↔ name ∉ log.finished ∧ name ∉ namesSince requests) ∧
    (∀ name, (∃ e, (NameStore.append log.store name).2 = .error e) ↔
      log.store.files.rejectsAppends = true) ∧
    (log.store.files.rejectsAppends = true → ∀ name, (log.record name).1.store = log.store) ∧
    (log.store.files.find? store.path.components =
      if names = [] then none else some (.file (asLines names).toUTF8)) ∧
    names.Nodup ∧
    ∀ n, n ∈ (openOn log.store).finished ↔ n ∈ names := by
  intro log names
  have start : (openOn store).Tracks [] [] :=
    tracks_openOn ⟨rfl, absent⟩ (List.forall_mem_nil _) List.nodup_nil
  have tracks : log.Tracks names (namesSince requests) := start.serveAll requests proper
  have path : log.store.path = store.path := (openOn store).serveAll_path requests
  refine ⟨tracks.record_eq_true_iff, ?_, ?_, path ▸ tracks.holds.2, tracks.nodup, ?_⟩
  · intro name
    constructor
    · rintro ⟨e, failed⟩
      by_contra taking
      have holds := tracks.holds
      rw [FileStore.taking_eq_self (Bool.not_eq_true _ ▸ taking)] at holds
      rw [FileStore.append_of_taking holds name] at failed
      cases failed
    · intro rejecting
      rw [FileStore.append_of_rejecting rejecting]
      exact ⟨_, rfl⟩
  · intro rejecting name
    by_cases known : name ∈ log.recorded
    · rw [record_of_mem known]
    · rw [record_of_not_mem known, FileStore.append_of_rejecting rejecting]
  · intro n
    exact mem_recorded_openOn tracks.holds tracks.proper

end FailoverLog

/-! ## A name that is lost twice -/

namespace LostTwice

def store : FileStore Tree := ⟨.empty, ⟨"failover.out"⟩⟩

def requests : List FileRequest :=
  [.ask (.record "db.a"), .rejectAppends true, .ask (.record "db.b"), .ask .reopen,
    .ask (.record "db.b"), .rejectAppends false, .ask (.record "db.b"), .ask .reopen,
    .ask (.record "db.b")]

theorem proper : ∀ name, .ask (.record name) ∈ requests → ProperName name := by
  intro name hn
  have among : name = "db.a" ∨ name = "db.b" := by simpa [requests] using hn
  obtain rfl | rfl := among
  · exact .of_solid (by decide) (by decide)
  · exact .of_solid (by decide) (by decide)

theorem absent : store.files.find? store.path.components = none := by
  decide +kernel

theorem served : written ((FailoverLog.openOn store).serveAll requests).2 = ["db.a", "db.b"] ∧
    ((FailoverLog.openOn store).serveAll requests).2.map (·.answer) =
      [some true, none, some true, none, some true, none, some false, none, some true] := by
  decide +kernel

/-- While it is lost the name is new to each log that is opened, and in the end the file has it once. -/
theorem written_once :
    ((FailoverLog.openOn store).serveAll requests).2.map (·.answer) =
      [some true, none, some true, none, some true, none, some false, none, some true] ∧
    ((FailoverLog.openOn store).serveAll requests).1.store.files.find? store.path.components =
      some (.file "db.a\ndb.b\n".toUTF8) := by
  obtain ⟨names, answers⟩ := served
  have text := (FailoverLog.lost_records absent requests proper).2.2.2.1
  rw [names, if_neg (by simp)] at text
  exact ⟨answers, text⟩

end LostTwice

end TableMigration
