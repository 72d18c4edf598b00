import Mathlib.Data.List.TakeWhile
import TableMigration.Proofs.Recording
import TableMigration.Proofs.Stores

/-!
# Reopening a log

What a log knows when it is opened again on the store it wrote to. A record is written behind
whatever the file holds and ended with a line feed, so that it makes a line of its own only if the
last line was ended or is blank: behind any other last line the two become one name, and both are
lost. The two kinds of store, on the other hand, cannot be told apart by any requests.
-/

namespace TableMigration

/-! ## The last line of a text -/

namespace Text

def lastLine (text : String) : String :=
  .ofList (text.toList.reverse.takeWhile (· ≠ '\n')).reverse

def endedLines (text : String) : String :=
  .ofList (text.toList.reverse.dropWhile (· ≠ '\n')).reverse

theorem endedLines_append_lastLine (text : String) : endedLines text ++ lastLine text = text := by
  rw [← String.toList_inj]
  simp only [endedLines, lastLine, String.toList_append, String.toList_ofList]
  rw [← List.reverse_append, List.takeWhile_append_dropWhile, List.reverse_reverse]

theorem not_mem_lastLine (text : String) : '\n' ∉ (lastLine text).toList := by
  intro h
  rw [lastLine, String.toList_ofList, List.mem_reverse] at h
  simpa using List.mem_takeWhile_imp h

theorem endedLines_eq (text : String) :
    endedLines text = "" ∨ ∃ front, endedLines text = front ++ "\n" := by
  unfold endedLines
  cases split : text.toList.reverse.dropWhile (· ≠ '\n') with
  | nil => exact Or.inl rfl
  | cons c cs =>
    have stop := List.head?_dropWhile_not (· ≠ '\n') text.toList.reverse
    rw [split] at stop
    obtain rfl : c = '\n' := by simpa using stop
    refine Or.inr ⟨.ofList cs.reverse, ?_⟩
    rw [← String.toList_inj]
    simp

theorem trimChars_append_proper {name : String} (proper : ProperName name) (cs : List Char) :
    trimChars (cs ++ name.toList) = trimStart cs ++ name.toList := by
  have front : trimStart (cs ++ name.toList) = trimStart cs ++ name.toList := by
    have same := trimStart_eq_self proper.head
    unfold trimStart at same ⊢
    rw [List.dropWhile_append]
    split
    next h => rw [same, List.isEmpty_iff.mp h, List.nil_append]
    next => rfl
  have ne : name.toList ≠ [] := by simpa using proper.nonempty
  have back : ∀ c, (trimStart cs ++ name.toList).reverse.head? = some c → isBlank c = false := by
    intro c hc
    rw [List.head?_reverse, List.getLast?_append_of_ne_nil _ ne] at hc
    exact proper.last c hc
  rw [trimChars, front, trimEnd, trimStart_eq_self back, List.reverse_reverse]

end Text

section
variable (text rest : String)

theorem recordedNames_endedLines_append :
    recordedNames (Text.endedLines text ++ rest) =
      recordedNames (Text.endedLines text) ++ recordedNames rest := by
  obtain none | ⟨front, ended⟩ := Text.endedLines_eq text
  · rw [none, String.empty_append]
    rfl
  · rw [ended, recordedNames_break, recordedNames_ended]

theorem recordedNames_eq_append :
    recordedNames text =
      recordedNames (Text.endedLines text) ++ recordedNames (Text.lastLine text) := by
  rw [← recordedNames_endedLines_append, Text.endedLines_append_lastLine]

end

theorem recordedNames_lastLine_of_blank {text : String}
    (blank : Text.isAllBlank (Text.lastLine text) = true) : recordedNames (Text.lastLine text) = [] := by
  rw [recordedNames_unbroken (Text.not_mem_lastLine text)]
  refine if_pos ?_
  rw [Text.trim, Text.trimChars_eq_nil_iff.mpr (List.all_eq_true.mp blank)]

/-- What the last line of `text` becomes once `name` is written behind it. -/
def joined (text name : String) : String :=
  .ofList (Text.trimStart (Text.lastLine text).toList ++ name.toList)

theorem joined_eq_iff (text name : String) :
    joined text name = name ↔ Text.isAllBlank (Text.lastLine text) = true := by
  rw [joined, ← String.toList_inj, String.toList_ofList, List.append_left_eq_self, Text.isAllBlank,
    List.all_eq_true]
  exact List.dropWhile_eq_nil_iff

theorem recordedNames_append_asLines {text name : String} {names : List String}
    (proper : ∀ n ∈ name :: names, ProperName n) :
    recordedNames (text ++ asLines (name :: names)) =
      recordedNames (Text.endedLines text) ++ joined text name :: names := by
  obtain ⟨first, others⟩ := List.forall_mem_cons.mp proper
  have unbroken : '\n' ∉ (Text.lastLine text ++ name).toList := by
    rw [String.toList_append, List.mem_append, not_or]
    exact ⟨Text.not_mem_lastLine text, first.line⟩
  have line : Text.trim (Text.lastLine text ++ name) = joined text name := by
    rw [Text.trim, String.toList_append, Text.trimChars_append_proper first]
    rfl
  have solid : joined text name ≠ "" := by
    intro h
    rw [joined, ← String.toList_inj, String.toList_ofList] at h
    exact first.nonempty (String.toList_inj.mp (List.append_eq_nil_iff.mp h).2)
  have shape : text ++ asLines (name :: names) =
      Text.endedLines text ++ (Text.lastLine text ++ name ++ "\n" ++ asLines names) := by
    rw [asLines_cons, ← String.append_assoc, ← String.append_assoc, ← String.append_assoc,
      ← String.append_assoc, ← String.append_assoc, Text.endedLines_append_lastLine]
  rw [shape, recordedNames_endedLines_append, recordedNames_break, recordedNames_unbroken unbroken,
    line, if_neg solid, recordedNames_asLines, flatMap_recordedNames others]
  rfl

theorem mem_recordedNames_append_iff {text name : String} {names : List String}
    (proper : ∀ n ∈ name :: names, ProperName n) (new : name ∉ recordedNames text)
    (once : name ∉ names) :
    (∀ n, n ∈ recordedNames (text ++ asLines (name :: names)) ↔
      n ∈ recordedNames text ∨ n ∈ name :: names) ↔ Text.isAllBlank (Text.lastLine text) = true := by
  rw [recordedNames_append_asLines proper]
  constructor
  · intro all
    -- the first new name is neither an old one nor a later one, so it is the joined one
    have found := (all name).mpr (Or.inr List.mem_cons_self)
    rw [List.mem_append, List.mem_cons] at found
    rw [recordedNames_eq_append, List.mem_append, not_or] at new
    refine (joined_eq_iff text name).mp ?_
    obtain h | h | h := found
    · exact absurd h new.1
    · exact h.symm
    · exact absurd h once
  · intro blank n
    have loaded : recordedNames text = recordedNames (Text.endedLines text) := by
      rw [recordedNames_eq_append, recordedNames_lastLine_of_blank blank, List.append_nil]
    rw [(joined_eq_iff text name).mpr blank, ← loaded, List.mem_append]

/-! ## Records in a row -/

namespace FailoverLog

variable {σ : Type} [NameStore σ]

def recordAll (log : FailoverLog σ) (names : List String) : FailoverLog σ :=
  names.foldl (fun log n => (log.record n).1) log

theorem recordAll_adds (log : FailoverLog σ) (names : List String) :
    ∃ added, log.Adds added (log.recordAll names) ∧
      ∀ n, n ∈ added ↔ n ∈ names ∧ n ∉ log.recorded := by
  induction names generalizing log with
  | nil => exact ⟨[], .refl log, by simp⟩
  | cons name names ih =>
    obtain ⟨one, adds, only, known⟩ := log.record_adds name
    obtain ⟨more, adds', others⟩ := ih (log.record name).1
    refine ⟨one ++ more, adds.trans adds', fun n => ?_⟩
    rw [List.mem_append, others, List.mem_cons]
    constructor
    · rintro (h | ⟨h, new⟩)
      · exact ⟨Or.inl (only n h), adds.unrecorded n h⟩
      · exact ⟨Or.inr h, fun old => new (adds.mem_of_mem old)⟩
    · rintro ⟨rfl | h, new⟩
      · rw [adds.recorded, List.mem_append] at known
        exact Or.inl (known.resolve_left new)
      · by_cases again : n ∈ one
        · exact Or.inl again
        · refine Or.inr ⟨h, fun old => ?_⟩
          rw [adds.recorded, List.mem_append] at old
          exact old.elim new again

end FailoverLog

namespace FileStore.HoldsText

variable {store : FileStore Tree} {text : String}

theorem isFinished_iff (h : store.HoldsText text) {n : String} :
    (FailoverLog.openOn store).isFinished n = true ↔ n ∈ recordedNames text := by
  rw [FailoverLog.isFinished, FailoverLog.openOn, h.load]
  simp

theorem mem_recorded_iff (h : store.HoldsText text) {n : String} :
    n ∈ (FailoverLog.openOn store).recorded ↔ n ∈ recordedNames text := by
  simp [FailoverLog.openOn, h.load]

end FileStore.HoldsText

namespace FailoverLog

/-- A log that records names in its file and is opened again knows what it knew and what it
recorded, just if the last line of the file was blank or there was nothing to write. The names on
ended lines are known again in any case. -/
theorem reopened_iff {store : FileStore Tree} {text : String} (holds : store.HoldsText text)
    {names : List String} (proper : ∀ n ∈ names, ProperName n) :
    let log := openOn store
    let reopened := openOn (log.recordAll names).store
    ((∀ n, reopened.isFinished n = true ↔ log.isFinished n = true ∨ n ∈ names) ↔
      Text.isAllBlank (Text.lastLine text) = true ∨ ∀ n ∈ names, log.isFinished n = true) ∧
    ∀ n ∈ recordedNames (Text.endedLines text), reopened.isFinished n = true := by
  intro log reopened
  obtain ⟨added, adds, mem_added⟩ := log.recordAll_adds names
  have before : ∀ n, log.isFinished n = true ↔ n ∈ recordedNames text := fun _ => holds.isFinished_iff
  have written : (log.recordAll names).store.HoldsText (text ++ asLines added) := by
    rw [adds.store]
    exact holds.foldl_append added
  have after : ∀ n, reopened.isFinished n = true ↔ n ∈ recordedNames (text ++ asLines added) :=
    fun _ => written.isFinished_iff
  have new : ∀ n, n ∈ added ↔ n ∈ names ∧ n ∉ recordedNames text := fun n => by
    rw [mem_added, holds.mem_recorded_iff]
  have union : ∀ n, (n ∈ recordedNames text ∨ n ∈ names) ↔ n ∈ recordedNames text ∨ n ∈ added := by
    intro n
    rw [new]
    by_cases old : n ∈ recordedNames text <;> simp [old]
  simp only [before, after, union]
  refine ⟨?_, fun n hn => ?_⟩
  · cases added with
    | nil =>
      have known : ∀ n ∈ names, n ∈ recordedNames text := fun n hn =>
        by_contra fun h => List.not_mem_nil ((new n).mpr ⟨hn, h⟩)
      rw [show asLines [] = "" from rfl, String.append_empty]
      exact iff_of_true (fun n => (or_iff_left List.not_mem_nil).symm) (Or.inr known)
    | cons first others =>
      obtain ⟨first_mem, first_new⟩ := (new first).mp List.mem_cons_self
      have written_proper : ∀ n ∈ first :: others, ProperName n := fun n hn =>
        proper n ((new n).mp hn).1
      rw [or_iff_left fun known => first_new (known first first_mem)]
      exact mem_recordedNames_append_iff written_proper first_new (List.nodup_cons.mp adds.nodup).1
  · rw [← Text.endedLines_append_lastLine text, String.append_assoc, recordedNames_endedLines_append]
    exact List.mem_append_left _ hn

def fileWith (text : String) : FileStore Tree :=
  ⟨Tree.empty.addFile ⟨"failover.out"⟩ text.toUTF8, ⟨"failover.out"⟩⟩

theorem reopened_edited :
    (∀ n ∈ ["db.c", "db.a"], ProperName n) ∧
      ∀ n, (openOn ((openOn (fileWith "db.a\n db.b \r\n\t")).recordAll ["db.c", "db.a"]).store).isFinished
          n = true ↔
        (openOn (fileWith "db.a\n db.b \r\n\t")).isFinished n = true ∨ n ∈ ["db.c", "db.a"] := by
  have proper : ∀ n ∈ ["db.c", "db.a"], ProperName n :=
    List.forall_mem_cons.mpr ⟨.of_solid (by decide) (by decide),
      List.forall_mem_singleton.mpr (.of_solid (by decide) (by decide))⟩
  have blank : Text.isAllBlank (Text.lastLine "db.a\n db.b \r\n\t") = true := by decide +kernel
  exact ⟨proper, (reopened_iff (FileStore.holdsText_addFile _ _) proper).1.mpr (Or.inl blank)⟩

/-- Behind a line that was not ended, a record destroys that line and is itself lost. -/
theorem reopened_torn :
    (fileWith "db.a").HoldsText "db.a" ∧ ProperName "db.b" ∧
      (openOn (fileWith "db.a")).isFinished "db.a" = true ∧
      (openOn ((openOn (fileWith "db.a")).recordAll ["db.b"]).store).finished = ["db.adb.b"] := by
  refine ⟨FileStore.holdsText_addFile _ _, .of_solid (by decide) (by decide), ?_, ?_⟩
  · exact (FileStore.holdsText_addFile _ _).isFinished_iff.mpr (by decide +kernel)
  · decide +kernel

end FailoverLog

/-! ## Any requests to either kind of store -/

inductive LogRequest
  | record (name : String)
  | isFinished (name : String)
  | reopen
  deriving DecidableEq, Repr

namespace FailoverLog

section
variable {σ : Type} [NameStore σ]

def answer (log : FailoverLog σ) : LogRequest → FailoverLog σ × Option Bool
  | .record name => let (log, added) := log.record name; (log, some added)
  | .isFinished name => (log, some (log.isFinished name))
  | .reopen => (openOn log.store, none)

def answers (log : FailoverLog σ) : List LogRequest → FailoverLog σ × List (Option Bool)
  | [] => (log, [])
  | r :: rs =>
    let (log, a) := log.answer r
    let (log, as) := log.answers rs
    (log, a :: as)

end

/-- The two logs know the same, and the file of the one holds the lines that the other keeps in
memory. -/
structure Alike (memory : FailoverLog MemoryStore) (file : FailoverLog (FileStore Tree)) : Prop where
  holds : Holds (.inr file.store) memory.store.lines
  finished : file.finished = memory.finished
  recorded : file.recorded = memory.recorded

namespace Alike

variable {memory : FailoverLog MemoryStore} {file : FailoverLog (FileStore Tree)}

theorem openOn {memory : MemoryStore} {file : FileStore Tree} (h : Holds (.inr file) memory.lines) :
    Alike (.openOn memory) (.openOn file) := by
  have lines : Holds (.inl memory) memory.lines := rfl
  have read : NameStore.load file = NameStore.load memory := h.load.trans lines.load.symm
  have names : (FailoverLog.openOn file).finished = (FailoverLog.openOn memory).finished := by
    unfold FailoverLog.openOn
    rw [read]
  exact ⟨h, names, names⟩

theorem record (h : Alike memory file) (name : String) :
    Alike (memory.record name).1 (file.record name).1 ∧
      (file.record name).2 = (memory.record name).2 := by
  unfold FailoverLog.record
  rw [h.recorded]
  split
  · exact ⟨h, rfl⟩
  · exact ⟨⟨h.holds.append name, h.finished, rfl⟩, rfl⟩

theorem answer (h : Alike memory file) (r : LogRequest) :
    Alike (memory.answer r).1 (file.answer r).1 ∧ (file.answer r).2 = (memory.answer r).2 := by
  cases r with
  | record name => exact ⟨(h.record name).1, congrArg some (h.record name).2⟩
  | isFinished name =>
    exact ⟨h, congrArg (fun names : List String => some (names.contains name)) h.finished⟩
  | reopen => exact ⟨openOn h.holds, rfl⟩

theorem answers (h : Alike memory file) (rs : List LogRequest) :
    Alike (memory.answers rs).1 (file.answers rs).1 ∧ (file.answers rs).2 = (memory.answers rs).2 := by
  induction rs generalizing memory file with
  | nil => exact ⟨h, rfl⟩
  | cons r rs ih =>
    obtain ⟨next, answered⟩ := h.answer r
    obtain ⟨last, others⟩ := ih next
    exact ⟨last, congrArg₂ List.cons answered others⟩

end Alike

/-- Whatever names are recorded and asked for, be they blank or broken over lines, and however often
the log is opened again: names in memory and names in a file are the same, line by line. -/
theorem answers_alike {lines : List String} {store : FileStore Tree} (holds : Holds (.inr store) lines)
    (requests : List LogRequest) :
    let memory := (openOn (MemoryStore.mk lines)).answers requests
    let file := (openOn store).answers requests
    file.2 = memory.2 ∧ file.1.finished = memory.1.finished ∧
      file.1.recorded = memory.1.recorded ∧ Holds (.inr file.1.store) memory.1.store.lines := by
  have start : Alike (.openOn ⟨lines⟩) (.openOn store) := .openOn holds
  obtain ⟨alike, answered⟩ := start.answers requests
  exact ⟨answered, alike.finished, alike.recorded, alike.holds⟩

theorem answers_alike_broken :
    let lines := [" db.a\r", "", "db.b\n\tdb.c"]
    let requests := [.record "db.c\r\n", .reopen, .isFinished "db.c", .record " ", .record "db.a\ndb.d",
      .reopen, .isFinished "db.d"]
    Holds (.inr (fileWith (asLines lines))) lines ∧
      ((openOn (fileWith (asLines lines))).answers requests).2 =
        [some true, none, some true, some true, some true, none, some true] := by
  have holds : Holds (.inr (fileWith (asLines [" db.a\r", "", "db.b\n\tdb.c"])))
      [" db.a\r", "", "db.b\n\tdb.c"] := ⟨Tree.rejectsAppends_link .., Tree.find?_addFile ..⟩
  exact ⟨holds, (answers_alike holds _).1.trans (by decide +kernel)⟩

end FailoverLog

end TableMigration
