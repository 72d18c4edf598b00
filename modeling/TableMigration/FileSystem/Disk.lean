import TableMigration.FileSystem
import TableMigration.Ordered

/-!
# A disk

Files and directories reached by walking from the root or from the working directory: every step
leads through a directory that is there, and a double dot leads back up.
-/

namespace TableMigration

inductive DiskEntry
  | file (content : ByteArray) (executable : Bool)
  | directory
  /-- A program that is no text. -/
  | program
  /-- A device that gives nothing, and takes everything or refuses all. -/
  | device (takes : Bool)
  deriving DecidableEq

/-- The entries under their names from the root down, and the working directory. -/
structure Disk where
  entries : List (List RawText × DiskEntry)
  base : List RawText

inductive Place
  | found (names : List RawText)
  /-- An entry could be made here. -/
  | vacant (names : List RawText)
  /-- A directory on the way is not there. -/
  | missing
  /-- What is on the way is no directory, or a name or the path is too long. -/
  | blocked
  deriving DecidableEq

namespace Disk

def standardDirectories : List (List String) :=
  [["bin"], ["dev"], ["etc"], ["home"], ["lib"], ["mnt"], ["opt"], ["proc"], ["root"], ["run"],
   ["sbin"], ["srv"], ["sys"], ["tmp"], ["usr"], ["usr", "bin"], ["usr", "lib"], ["usr", "local"],
   ["usr", "local", "bin"], ["usr", "sbin"], ["usr", "share"], ["var"], ["var", "log"],
   ["var", "tmp"]]

def standardPrograms : List String :=
  ["awk", "base64", "basename", "bash", "cat", "chgrp", "chmod", "chown", "cksum", "cmp", "comm",
   "cp", "cut", "dash", "date", "dd", "df", "diff", "dirname", "du", "echo", "egrep", "env",
   "expand", "expr", "false", "fgrep", "find", "flock", "fold", "grep", "gunzip", "gzip", "head",
   "hostname", "id", "install", "join", "kill", "link", "ln", "ls", "md5sum", "mkdir", "mkfifo",
   "mktemp", "mv", "nice", "nl", "nohup", "nproc", "od", "paste", "perl", "printenv", "printf",
   "ps", "pwd", "readlink", "realpath", "rev", "rm", "rmdir", "sed", "seq", "setsid", "sh",
   "sha1sum", "sha256sum", "shuf", "sleep", "sort", "split", "stat", "stdbuf", "sum", "sync",
   "tac", "tail", "tar", "tee", "test", "timeout", "touch", "tr", "true", "truncate", "tsort",
   "tty", "uname", "unexpand", "uniq", "unlink", "wc", "which", "whoami", "xargs", "yes", "zcat",
   "["]

def workingDirectory : List String := ["tmp", ".working"]

def named (names : List String) (entry : DiskEntry) : List RawText × DiskEntry :=
  (names.map Text.encode, entry)

def empty : Disk where
  entries :=
    (workingDirectory :: standardDirectories).map (named · .directory) ++
      [named ["dev", "null"] (.device true), named ["dev", "full"] (.device false),
       named ["etc", "passwd"] (.file "root:x:0:0:root:/root:/bin/bash\n".toUTF8 false)] ++
      standardPrograms.flatMap fun name =>
        [named ["usr", "bin", name] .program, named ["bin", name] .program]
  base := workingDirectory.map Text.encode

/-- The root is a directory without an entry of its own. -/
def find? (d : Disk) (names : List RawText) : Option DiskEntry :=
  if names = [] then some .directory else d.entries.lookup names

def put (d : Disk) (names : List RawText) (entry : DiskEntry) : Disk :=
  { d with entries := (names, entry) :: d.entries.filter (·.1 ≠ names) }

def erase (d : Disk) (names : List RawText) : Disk :=
  { d with entries := d.entries.filter (·.1 ≠ names) }

def isName (n : RawText) : Bool :=
  n.length ≤ 255 && !n.contains 0

def walk (d : Disk) (here : List RawText) : List RawText → Place
  | [] => .found here
  | piece :: rest =>
    if d.find? here ≠ some .directory then .blocked
    else
      match Path.component? piece with
      | some .up => d.walk here.dropLast rest
      | some (.name n) =>
        let next := here ++ [n]
        if !isName n then .blocked
        else if (d.find? next).isSome then d.walk next rest
        else if rest = [] then .vacant next
        else .missing
      | _ => d.walk here rest

/-- Paths have at most 4095 bytes. -/
def locatePieces (d : Disk) (p : Path) (pieces : List RawText) : Place :=
  if p.raw = [] then .missing
  else if 4095 < p.raw.length then .blocked
  else if pieces.head? = some [] then d.walk [] pieces
  else d.walk d.base pieces

def locate (d : Disk) (p : Path) : Place :=
  d.locatePieces p p.pieces

def lookup? (d : Disk) (p : Path) : Option DiskEntry :=
  match d.locate p with
  | .found names => d.find? names
  | _ => none

def isDirectory (d : Disk) (p : Path) : Bool :=
  d.lookup? p = some .directory

inductive Making
  | made (d : Disk)
  | missing
  | refused

def makeOne (d : Disk) (p : Path) : Making :=
  let pieces := (p.pieces.reverse.dropWhile (· = [])).reverse
  match d.locatePieces p (if pieces = [] then p.pieces else pieces) with
  | .vacant names => .made (d.put names .directory)
  | .missing => .missing
  | .found _ | .blocked => .refused

/-- Makes the first of these directories, and those after it, each above the one before, as far as
they are not there. Says whether the first one is there in the end. -/
def makeFirst (d : Disk) : List Path → Disk × Bool
  | [] => (d, false)
  | p :: above =>
    if p.raw = [] then (d, true)
    else
      match d.makeOne p with
      | .made d => (d, true)
      | .refused => (d, d.isDirectory p)
      | .missing =>
        match d.makeFirst above with
        | (d, false) => (d, false)
        | (d, true) =>
          match d.makeOne p with
          | .made d => (d, true)
          | .missing | .refused => (d, d.isDirectory p)

def ancestors : Nat → Path → List Path
  | 0, _ => []
  | fuel + 1, p =>
    match p.parent? with
    | none => [p]
    | some parent => p :: ancestors fuel parent

/-- Makes a directory with all those above it, and says whether it is there now. Directories made
on the way stay, even if the last one cannot be made. -/
def makeDirectory (d : Disk) (p : Path) : Disk × Bool :=
  d.makeFirst (ancestors (p.raw.length + 1) p)

def write (d : Disk) (p : Path) (content : ByteArray) : Option Disk :=
  match d.locate p with
  | .found names =>
    match d.find? names with
    | some (.file _ executable) => some (d.put names (.file content executable))
    | some (.device true) => some d
    | _ => none
  | .vacant names => some (d.put names (.file content false))
  | _ => none

def readBytes (d : Disk) (p : Path) : Option ByteArray :=
  match d.lookup? p with
  | some (.file content _) => some content
  | some (.device _) => some ByteArray.empty
  | _ => none

def append (d : Disk) (p : Path) (more : ByteArray) : Option Disk :=
  d.write p ((d.readBytes p).getD ByteArray.empty ++ more)

def addFile (d : Disk) (p : Path) (content : ByteArray) : Disk :=
  let d := (d.makeDirectory (p.parent?.getD ⟨[]⟩)).1
  (d.write p content).getD d

def addDirectory (d : Disk) (p : Path) : Disk :=
  (d.makeDirectory p).1

def readText (d : Disk) (p : Path) : Except FileError String :=
  match (d.readBytes p).map Text.decode with
  | some (.ok s) => .ok s
  | _ => .error (.reading p)

def appendLine (d : Disk) (p : Path) (line : String) : Disk × Except FileError Unit :=
  let parent := p.parent?.getD ⟨[]⟩
  match d.makeDirectory parent with
  | (d, false) => (d, .error (.creatingDirectory parent))
  | (d, true) =>
    match d.append p (line ++ "\n").toUTF8 with
    | none =>
      (d, .error (if d.lookup? p = some (.device false) then .appending p else .opening p))
    | some d => (d, .ok ())

def namesBelow (d : Disk) (here : List RawText) : List RawText :=
  Ordered.ofKeys (d.entries.filterMap fun e =>
    if e.1.dropLast = here then e.1.getLast? else none)

def list (d : Disk) (p : Path) : Except FileError (List Path) :=
  match d.locate p with
  | .found names =>
    if d.find? names = some .directory then .ok ((d.namesBelow names).map p.join)
    else .error (.listing p)
  | _ => .error (.listing p)

instance : FileSystem Disk where
  readText := readText
  appendLine := appendLine
  isFile d p :=
    match d.lookup? p with
    | some (.file ..) | some .program => true
    | _ => false
  isDirectory := isDirectory
  holds d p := (d.lookup? p).isSome
  list := list

/-! ## Listings -/

def readListed (disk : Disk) (file : Option Path) (line : List Char) : Disk × Option Path :=
  match line, file with
  | 'd' :: ' ' :: name, _ => (disk.addDirectory ⟨String.ofList name⟩, none)
  | 'f' :: ' ' :: name, _ =>
    let path : Path := ⟨String.ofList name⟩
    (disk.addFile path ByteArray.empty, some path)
  | '|' :: text, some path =>
    ((disk.append path (String.ofList text ++ "\n").toUTF8).getD disk, some path)
  | _, _ => (disk, file)

/-- The disk that a listing describes. A line that begins with `d` names a directory and one that begins
with `f` a file; the lines of a file follow it, each after a bar. -/
def ofListing (text : String) : Disk :=
  ((Text.lineChars text.toList).foldl (fun (disk, file) line => readListed disk file line)
    (Disk.empty, none)).1

end Disk

end TableMigration
