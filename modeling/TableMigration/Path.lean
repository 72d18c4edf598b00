import TableMigration.Text.Split
import TableMigration.Text.Utf8

/-!
# Paths

A path is kept as it is written, in bytes that need not be those of a text. Its components are what it
means: repeated slashes, slashes at the end and dots inside a path say nothing, while a dot at the start
of a relative path and double dots are kept.
-/

namespace TableMigration

/-- What a file system calls things. -/
abbrev RawText := List UInt8

instance : Coe String RawText := ⟨Text.encode⟩

structure Path where
  raw : RawText
  deriving DecidableEq, Repr, Inhabited

inductive Component
  | root
  | here
  | up
  | name (n : RawText)
  deriving DecidableEq, Repr

namespace Path

def slash : UInt8 := 0x2F

def dot : UInt8 := 0x2E

def text (p : Path) : String :=
  Text.readLossy p.raw

def pieces (p : Path) : List RawText :=
  Text.pieces slash p.raw

/-- The component that a piece after the first one stands for. -/
def component? (piece : RawText) : Option Component :=
  if piece = [] || piece = [dot] then none
  else if piece = [dot, dot] then some .up
  else some (.name piece)

def components (p : Path) : List Component :=
  if p.raw = [] then []
  else
    match p.pieces with
    | [] => []
    | first :: rest =>
      let start :=
        if first = [] then [.root] else if first = [dot] then [.here] else (component? first).toList
      start ++ rest.filterMap component?

def fileName? (p : Path) : Option RawText :=
  match p.components.getLast? with
  | some (.name n) => some n
  | _ => none

/-- A file name without its extension: what stands before the last dot, unless nothing does. -/
def stem (name : RawText) : RawText :=
  match Text.splitOnce dot name.reverse with
  | some (_, before) => if before = [] then name else before.reverse
  | none => name

def fileStem? (p : Path) : Option RawText :=
  p.fileName?.map stem

def join (p : Path) (name : RawText) : Path :=
  if p.raw = [] || p.raw.getLast? = some slash then ⟨p.raw ++ name⟩
  else ⟨p.raw ++ slash :: name⟩

/-- Pieces without those at the end that say nothing. -/
def dropIdle (ps : List RawText) : List RawText :=
  (ps.reverse.dropWhile fun piece => (component? piece).isNone).reverse

/-- The path of the directory that holds `p`, which is empty for a lone component. -/
def parent? (p : Path) : Option Path :=
  match p.pieces with
  | [] => none
  | first :: rest =>
    match dropIdle rest with
    | [] => if first = [] then none else some ⟨[]⟩
    | rest =>
      match dropIdle rest.dropLast with
      | [] => if first = [] then some ⟨[slash]⟩ else some ⟨first⟩
      | above => some ⟨[slash].intercalate (first :: above)⟩

end Path

end TableMigration
