import TableMigration.FileSystem
import TableMigration.Text.Split

/-!
# The failover log

Finished tables are recorded by name, one to a line, so that a later run passes them by. A store
that cannot be read counts as empty, and a record that cannot be written is only lost.
-/

namespace TableMigration

/-- The names in the text of a store: its lines, trimmed, without blank ones. -/
def recordedNames (text : String) : List String :=
  ((Text.lines text).map Text.trim).filter (· ≠ "")

class NameStore (σ : Type) where
  load : σ → Except FileError (List String)
  append : σ → String → σ × Except FileError Unit

structure MemoryStore where
  lines : List String
  deriving DecidableEq, Repr

instance : NameStore MemoryStore where
  load store := .ok (recordedNames ("\n".intercalate store.lines))
  append store name := (⟨store.lines ++ [name]⟩, .ok ())

/-- Names in a file, of which there are none while the file is not there. -/
structure FileStore (φ : Type) where
  files : φ
  path : Path

instance {φ : Type} [FileSystem φ] : NameStore (FileStore φ) where
  load store :=
    if FileSystem.holds store.files store.path then
      (FileSystem.readText store.files store.path).map recordedNames
    else .ok []
  append store name :=
    let (files, result) := FileSystem.appendLine store.files store.path name
    ({ store with files }, result)

instance {σ τ : Type} [NameStore σ] [NameStore τ] : NameStore (σ ⊕ τ) where
  load
    | .inl store => NameStore.load store
    | .inr store => NameStore.load store
  append
    | .inl store, name => let (store, result) := NameStore.append store name; (.inl store, result)
    | .inr store, name => let (store, result) := NameStore.append store name; (.inr store, result)

/-- The names finished before this log was opened, and those known to be recorded, each once. -/
structure FailoverLog (σ : Type) where
  store : σ
  finished : List String
  recorded : List String

namespace FailoverLog

variable {σ : Type} [NameStore σ]

def openOn (store : σ) : FailoverLog σ :=
  let names := match NameStore.load store with
    | .ok names => names.eraseDups
    | .error _ => []
  ⟨store, names, names⟩

def isFinished (log : FailoverLog σ) (name : String) : Bool :=
  log.finished.contains name

/-- Adds a name that was not recorded yet to the store, and says whether it was such. -/
def record (log : FailoverLog σ) (name : String) : FailoverLog σ × Bool :=
  if log.recorded.contains name then (log, false)
  else
    ({ log with
        store := (NameStore.append log.store name).1
        recorded := log.recorded ++ [name] }, true)

def summary (log : FailoverLog σ) : String :=
  "FailoverLog \x7b finished: " ++ toString log.finished.length ++ ", recorded: " ++
    toString log.recorded.length ++ ", .. \x7d"

end FailoverLog

end TableMigration
