import TableMigration.Ordered
import TableMigration.Text.Lowercase
import TableMigration.Text.Split

/-!
# The table mapping

Each line that is neither blank nor a comment maps a table to its destination: two qualified names
around a colon, of which the first may come once. Names are kept in lower case.
-/

namespace TableMigration

inductive MappingError
  | noColon (line : Nat) (text : String)
  | unqualified (line : Nat) (part : String)
  | repeated (line : Nat) (source : String)
  deriving DecidableEq, Repr

def MappingError.detail : MappingError → Nat × String
  | .noColon line text =>
    (line, "expected 'src_db.src_table:dst_project.dst_table', got '" ++ text ++ "'")
  | .unqualified line part =>
    (line, "'" ++ part ++ "' is not a qualified 'database.table' name")
  | .repeated line source => (line, source ++ " is mapped more than once")

def MappingError.message (e : MappingError) : String :=
  "table mapping line " ++ toString e.detail.1 ++ ": " ++ e.detail.2

/-- Destinations under their source tables, in ascending order. -/
structure TableMapping where
  entries : List (String × String)
  deriving DecidableEq, Repr

/-- A name of a database and a table, each in lower case, around the only dot. -/
def qualified? (part : List Char) : Option String :=
  match Text.splitOnce '.' part with
  | some (database, table) =>
    if database ≠ [] ∧ table ≠ [] ∧ '.' ∉ table then
      some (String.ofList (Text.lowerChars database ++ '.' :: Text.lowerChars table))
    else none
  | none => none

namespace TableMapping

def readPart (line : Nat) (part : List Char) : Except MappingError String :=
  let part := Text.trimChars part
  match qualified? part with
  | some name => .ok name
  | none => .error (.unqualified line (String.ofList part))

def readEntry (line : Nat) (text : List Char) : Except MappingError (String × String) :=
  match Text.splitOnce ':' text with
  | none => .error (.noColon line (String.ofList text))
  | some (source, destination) => do
    let source ← readPart line source
    let destination ← readPart line destination
    return (source, destination)

def isSignificant (text : List Char) : Bool :=
  text ≠ [] && text.head? ≠ some '#'

def readLines (line : Nat) (entries : List (String × String)) :
    List (List Char) → Except MappingError (List (String × String))
  | [] => .ok entries
  | raw :: rest =>
    let text := Text.trimChars raw
    if !isSignificant text then readLines (line + 1) entries rest
    else
      match readEntry line text with
      | .error e => .error e
      | .ok (source, destination) =>
        if (Ordered.find? source entries).isSome then .error (.repeated line source)
        else readLines (line + 1) (Ordered.insert source destination entries) rest

def parse (contents : String) : Except MappingError TableMapping :=
  (readLines 1 [] (Text.lineChars contents.toList)).map (⟨·⟩)

def destination? (m : TableMapping) (source : String) : Option String :=
  Ordered.find? source m.entries

def contains (m : TableMapping) (source : String) : Bool :=
  (m.destination? source).isSome

end TableMapping

end TableMigration
