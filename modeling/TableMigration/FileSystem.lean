import TableMigration.Path
import TableMigration.Text.Printable

/-!
# File systems

What the program asks of a file system, and the ways in which a request can fail.
-/

namespace TableMigration

instance decidableEqContent : DecidableEq ByteArray := ByteArray.instDecidableEq

inductive FileError
  | appendRejected (path : Path)
  | isDirectory (path : Path)
  | notFound (path : Path)
  | notDirectory (path : Path)
  | notText (fault : Text.Utf8Fault)
  | reading (path : Path)
  | listing (path : Path)
  | creatingDirectory (path : Path)
  | opening (path : Path)
  | appending (path : Path)
  deriving DecidableEq, Repr

def FileError.message : FileError → String
  | .appendRejected p => "append rejected: " ++ Text.quote p.raw
  | .isDirectory p => "Is a directory: " ++ Text.quote p.raw
  | .notFound p => "File not found: " ++ Text.quote p.raw
  | .notDirectory p => "Not a directory or not found: " ++ Text.quote p.raw
  | .notText fault => "Invalid UTF-8: " ++ fault.message
  | .reading p => "reading file " ++ Text.quote p.raw
  | .listing p => "reading dir " ++ Text.quote p.raw
  | .creatingDirectory p => "creating dir " ++ Text.quote p.raw
  | .opening p => "opening " ++ Text.quote p.raw ++ " for append"
  | .appending p => "appending to " ++ Text.quote p.raw

class FileSystem (φ : Type) where
  readText : φ → Path → Except FileError String
  /-- Adds a line and its end to a file, which is made if it is not there. -/
  appendLine : φ → Path → String → φ × Except FileError Unit
  isFile : φ → Path → Bool
  isDirectory : φ → Path → Bool
  holds : φ → Path → Bool
  /-- The entries of a directory as paths below it, in ascending order. -/
  list : φ → Path → Except FileError (List Path)

end TableMigration
