import TableMigration.Shell.Pattern
import TableMigration.Shell.Utility.Basic

/-!
# Programs that change files

Making, copying, moving and removing files and directories, listing them, and the parts of their
names.
-/

namespace TableMigration.Shell.Files

def place (path : String) : Act Place := do
  return (← get).disk.locate (pathOf path)

def isDirectory (path : String) : Act Bool := do
  return (← entry? path) = some .directory

def makingFault (path : String) : Act String := do
  return match ← place path with
    | .missing => "No such file or directory"
    | .blocked => "Not a directory"
    | .found _ => "File exists"
    | .vacant _ => "Permission denied"

def quoted (path : String) : String :=
  "'" ++ path ++ "'"

def withoutSlashes (path : String) : String :=
  match (path.toList.reverse.dropWhile (· = '/')).reverse with
  | [] => if path = "" then "" else "/"
  | cs => String.ofList cs

def baseOf (path : String) : String :=
  let cs := (withoutSlashes path).toList
  if cs = ['/'] then "/" else String.ofList (cs.reverse.takeWhile (· ≠ '/')).reverse

def directoryOf (path : String) : String :=
  let cs := (withoutSlashes path).toList
  let above := (cs.reverse.dropWhile (· ≠ '/'))
  if above.isEmpty then (if cs = ['/'] then "/" else ".")
  else
    match (above.dropWhile (· = '/')).reverse with
    | [] => "/"
    | cs => String.ofList cs

def subtree (d : Disk) (names : List RawText) : List (List RawText × DiskEntry) :=
  d.entries.filter fun e => names.isPrefixOf e.1

def removeTree (d : Disk) (names : List RawText) : Disk :=
  { d with entries := d.entries.filter fun e => !names.isPrefixOf e.1 }

def isEmptyDirectory (d : Disk) (names : List RawText) : Bool :=
  (subtree d names).length ≤ 1

/-! ## Making -/

def mkdir : Utility := fun args =>
  withOptions 1 "mkdir" ⟨"pv", "m", [("parents", 'p'), ("verbose", 'v'), ("mode", 'm')]⟩ args
    fun p => do
  if p.operands.isEmpty then return ← refuse 1 "mkdir" "missing operand"
  let mut status := 0
  for path in p.operands do
    let s ← get
    if p.has 'p' then
      let (disk, fine) := s.disk.makeDirectory (pathOf path)
      set { s with disk }
      if !fine || !disk.isDirectory (pathOf path) then
        grumble "mkdir" ("cannot create directory " ++ quoted path)
        status := 1
    else
      match s.disk.makeOne (pathOf path) with
      | .made disk =>
        set { s with disk }
        if p.has 'v' then
          discard (say ("mkdir: created directory " ++ quoted path ++ "\n"))
      | _ =>
        let why ← makingFault path
        grumble "mkdir" ("cannot create directory " ++ quoted path ++ ": " ++ why)
        status := 1
  return status

def touch : Utility := fun args =>
  withOptions 1 "touch" ⟨"camfh", "drt", [("no-create", 'c'), ("date", 'd'), ("reference", 'r')]⟩
    args fun p => do
  if p.operands.isEmpty then return ← refuse 1 "touch" "missing file operand"
  let mut status := 0
  for path in p.operands do
    if (← entry? path).isNone && !p.has 'c' then
      let made ←
        if path.endsWith "/" then pure false
        else changeDisk fun d => d.append (pathOf path) ByteArray.empty
      unless made do
        grumble "touch" ("cannot touch " ++ quoted path ++ ": " ++ (← makingFault path))
        status := 1
  return status

def truncate : Utility := fun args =>
  withOptions 1 "truncate" ⟨"c", "s", [("size", 's')]⟩ args fun p => do
  match (p.value? 's').bind readSize? with
  | none => refuse 1 "truncate" "you must specify either '--size' or '--reference'"
  | some size =>
    let mut status := 0
    for path in p.operands do
      let change (d : Disk) : Option Disk :=
        let content := ((d.readBytes (pathOf path)).getD ByteArray.empty).extract 0 size
        d.write (pathOf path) (content ++ ⟨Array.replicate (size - content.size) 0⟩)
      unless ← changeDisk change do
        grumble "truncate" ("cannot open " ++ quoted path ++ " for writing")
        status := 1
    return status

def mktemp : Utility := fun args =>
  withOptions 1 "mktemp" ⟨"dqut", "p", [("directory", 'd'), ("tmpdir", 'p')]⟩ args fun p => do
  let template := p.operands.head?.getD "/tmp/tmp.XXXXXXXXXX"
  let marks := (template.toList.reverse.takeWhile (· = 'X')).length
  let s ← get
  let number := toString s.nextChannel
  let filler := String.ofList (List.replicate (marks - number.length) '0') ++ number
  let path := String.ofList (template.toList.take (template.length - marks)) ++ filler
  let path := match p.value? 'p' with
    | some directory => directory ++ "/" ++ path
    | none => path
  set { s with nextChannel := s.nextChannel + 1 }
  let change (d : Disk) : Option Disk :=
    if p.has 'd' then match d.makeOne (pathOf path) with
      | .made d => some d
      | _ => none
    else d.append (pathOf path) ByteArray.empty
  if ← changeDisk change then sayAll "mktemp" (path ++ "\n")
  else refuse 1 "mktemp" ("failed to create file via template " ++ quoted template)

/-! ## Removing -/

def rmdir : Utility := fun args =>
  withOptions 1 "rmdir" ⟨"pv", "", [("parents", 'p'), ("ignore-fail-on-non-empty", 'v')]⟩ args
    fun p => do
  if p.operands.isEmpty then return ← refuse 1 "rmdir" "missing operand"
  let mut status := 0
  for path in p.operands do
    let chain := if p.has 'p' then
        (List.range (path.length + 1)).foldl (fun (done, path) _ =>
          if path = "." || path = "/" || done.contains path then (done, path)
          else (done ++ [path], directoryOf path)) (([] : List String), withoutSlashes path) |>.1
      else [path]
    for path in chain do
      let s ← get
      match s.disk.locate (pathOf path) with
      | .found names =>
        if s.disk.find? names ≠ some .directory then
          grumble "rmdir" ("failed to remove " ++ quoted path ++ ": Not a directory")
          status := 1
        else if !isEmptyDirectory s.disk names then
          unless p.has 'v' do
            grumble "rmdir" ("failed to remove " ++ quoted path ++ ": Directory not empty")
            status := 1
        else set { s with disk := s.disk.erase names }
      | _ =>
        grumble "rmdir" ("failed to remove " ++ quoted path ++ ": No such file or directory")
        status := 1
  return status

def removeTable : OptionTable :=
  ⟨"frRidvI", "", [("force", 'f'), ("recursive", 'r'), ("dir", 'd'), ("verbose", 'v')]⟩

def rm : Utility := fun args => withOptions 1 "rm" removeTable args fun p => do
  if p.operands.isEmpty && !p.has 'f' then return ← refuse 1 "rm" "missing operand"
  let recursive := p.has 'r' || p.has 'R'
  let mut status := 0
  for path in p.operands do
    let s ← get
    let base := baseOf path
    match s.disk.locate (pathOf path) with
    | .found names =>
      let isDirectory := s.disk.find? names = some .directory
      if isDirectory && !recursive && !(p.has 'd' && isEmptyDirectory s.disk names) then
        grumble "rm" ("cannot remove " ++ quoted path ++ ": Is a directory")
        status := 1
      else if isDirectory && (base = "." || base = ".." || base = "/") then
        grumble "rm" ("refusing to remove '.' or '..' directory: skipping " ++ quoted path)
        status := 1
      else if !isDirectory && path.endsWith "/" then
        grumble "rm" ("cannot remove " ++ quoted path ++ ": Not a directory")
        status := 1
      else
        set { s with disk := removeTree s.disk names }
        if p.has 'v' then discard (say ("removed " ++ quoted path ++ "\n"))
    | _ =>
      unless p.has 'f' do
        grumble "rm" ("cannot remove " ++ quoted path ++ ": No such file or directory")
        status := 1
  return status

/-! ## Copying and moving -/

def transferTable : OptionTable :=
  ⟨"rRafpnivduTPLxlsb", "tm", [("recursive", 'r'), ("archive", 'a'), ("force", 'f'),
    ("no-clobber", 'n'), ("interactive", 'i'), ("verbose", 'v'), ("update", 'u'),
    ("target-directory", 't'), ("no-target-directory", 'T'), ("preserve", 'p')]⟩

def transfers (program : String) (p : Parsed) : Act (Option (List (String × String))) := do
  let into (directory : String) (paths : List String) : List (String × String) :=
    paths.map fun path => (path, withoutSlashes directory ++ "/" ++ baseOf path)
  match p.value? 't', p.operands with
  | some directory, paths => return some (into directory paths)
  | none, [source, target] =>
    if (← isDirectory target) && !p.has 'T' then return some (into target [source])
    else return some [(source, target)]
  | none, operands =>
    match operands.getLast? with
    | some target =>
      if operands.length < 2 then
        grumble program ("missing destination file operand after " ++ quoted target)
        return none
      if ← isDirectory target then return some (into target operands.dropLast)
      grumble program ("target " ++ quoted target ++ ": No such file or directory")
      return none
    | none =>
      grumble program "missing file operand"
      return none

def copyOne (program : String) (p : Parsed) (source target : String) : Act Bool := do
  let recursive := p.has 'r' || p.has 'R' || p.has 'a'
  let s ← get
  match s.disk.locate (pathOf source), s.disk.locate (pathOf target) with
  | .found origin, goal =>
    let there := match goal with
      | .found names => some names
      | _ => none
    if there = some origin then
      grumble program (quoted source ++ " and " ++ quoted target ++ " are the same file")
      return false
    match s.disk.find? origin with
    | some .directory =>
      if !recursive then
        grumble program ("-r not specified; omitting directory " ++ quoted source)
        return false
      match goal with
      | .found names | .vacant names =>
        if origin.isPrefixOf names then
          grumble program ("cannot copy a directory, " ++ quoted source ++ ", into itself")
          return false
        if there.any fun n => s.disk.find? n ≠ some .directory then
          grumble program ("cannot overwrite non-directory " ++ quoted target)
          return false
        let disk := (subtree s.disk origin).foldl (fun d (n, e) =>
          d.put (names ++ n.drop origin.length) e) s.disk
        set { s with disk }
        return true
      | _ =>
        grumble program ("cannot create directory " ++ quoted target)
        return false
    | some entry =>
      if p.has 'n' && there.isSome then return true
      match goal with
      | .found names =>
        match s.disk.find? names, entry with
        | some .directory, _ =>
          grumble program ("cannot overwrite directory " ++ quoted target ++ " with non-directory")
          return false
        | some (.file _ executable), .file content _ =>
          set { s with disk := s.disk.put names (.file content executable) }
          return true
        | some (.device takes), _ => return takes
        | _, entry =>
          set { s with disk := s.disk.put names entry }
          return true
      | .vacant names =>
        if target.endsWith "/" then
          grumble program ("cannot create regular file " ++ quoted target ++ ": Not a directory")
          return false
        let entry := match entry with
          | .device _ => .file ByteArray.empty false
          | entry => entry
        set { s with disk := s.disk.put names entry }
        return true
      | _ =>
        grumble program ("cannot create regular file " ++ quoted target ++ ": " ++
          (← makingFault target))
        return false
    | none => return false
  | _, _ =>
    grumble program ("cannot stat " ++ quoted source ++ ": No such file or directory")
    return false

def cp : Utility := fun args => withOptions 1 "cp" transferTable args fun p => do
  match ← transfers "cp" p with
  | none => return 1
  | some pairs =>
    let mut status := 0
    for (source, target) in pairs do
      unless ← copyOne "cp" p source target do status := 1
    return status

def mv : Utility := fun args => withOptions 1 "mv" transferTable args fun p => do
  match ← transfers "mv" p with
  | none => return 1
  | some pairs =>
    let mut status := 0
    for (source, target) in pairs do
      let s ← get
      match s.disk.locate (pathOf source), s.disk.locate (pathOf target) with
      | .found origin, goal =>
        let there := match goal with
          | .found names => s.disk.find? names
          | _ => none
        let fromDirectory := s.disk.find? origin = some .directory
        match goal with
        | .found names | .vacant names =>
          if names = origin then
            grumble "mv" (quoted source ++ " and " ++ quoted target ++ " are the same file")
            status := 1
          else if p.has 'n' && there.isSome then pure ()
          else if origin.isPrefixOf names then
            grumble "mv" ("cannot move " ++ quoted source ++ " to a subdirectory of itself, " ++
              quoted target)
            status := 1
          else if there = some .directory && !fromDirectory then
            grumble "mv" ("cannot overwrite directory " ++ quoted target ++ " with non-directory")
            status := 1
          else if fromDirectory && there.isSome &&
              (there ≠ some .directory || !isEmptyDirectory s.disk names) then
            grumble "mv" ("cannot overwrite " ++ quoted target)
            status := 1
          else
            match there with
            | some (.device _) => set { s with disk := removeTree s.disk origin }
            | _ =>
              let moved := subtree s.disk origin
              let disk := moved.foldl (fun d (n, e) => d.put (names ++ n.drop origin.length) e)
                (removeTree s.disk origin)
              set { s with disk }
        | _ =>
          grumble "mv" ("cannot move " ++ quoted source ++ " to " ++ quoted target ++ ": " ++
            (← makingFault target))
          status := 1
      | _, _ =>
        grumble "mv" ("cannot stat " ++ quoted source ++ ": No such file or directory")
        status := 1
    return status

def ln : Utility := fun args =>
  withOptions 1 "ln" ⟨"sfnvTri", "t", [("symbolic", 's'), ("force", 'f')]⟩ args fun p => do
  let p := match p.operands with
    | [source] => { p with operands := [source, baseOf source] }
    | _ => p
  match ← transfers "ln" p with
  | none => return 1
  | some pairs =>
    let mut status := 0
    for (source, target) in pairs do
      if (← entry? target).isSome && !p.has 'f' then
        grumble "ln" ("failed to create link " ++ quoted target ++ ": File exists")
        status := 1
      else unless ← copyOne "ln" { p with options := [('r', "")] } source target do status := 1
    return status

/-! ## Modes -/

/-- Whether a mode makes a file executable that was or was not. -/
def changeMode? (mode : String) (executable : Bool) : Option Bool :=
  let cs := mode.toList
  if cs.isEmpty then none
  else if cs.all fun c => '0' ≤ c && c ≤ '7' then
    some (cs.any fun c => c = '1' || c = '3' || c = '5' || c = '7')
  else
    (cs.splitOn ',').foldlM (fun executable clause =>
      let who := clause.takeWhile "ugoa".toList.contains
      match clause.drop who.length with
      | sign :: rights =>
        if !rights.all "rwxXst".toList.contains then none
        else
          let x := rights.contains 'x' || (rights.contains 'X' && executable)
          match sign with
          | '+' => some (executable || x)
          | '-' => some (executable && !x)
          | '=' => some x
          | _ => none
      | [] => none) executable

def chmod : Utility := fun args => do
  let flags := args.takeWhile fun a => ["-R", "-v", "-f", "-c", "--"].contains a
  match args.drop flags.length with
  | mode :: path :: paths =>
    let mut status := 0
    for path in path :: paths do
      let s ← get
      match s.disk.locate (pathOf path) with
      | .found names =>
        match s.disk.find? names with
        | some (.file content executable) =>
          match changeMode? mode executable with
          | some executable => set { s with disk := s.disk.put names (.file content executable) }
          | none => return ← refuse 1 "chmod" ("invalid mode: " ++ quoted mode)
        | _ => pure ()
      | _ =>
        grumble "chmod" ("cannot access " ++ quoted path ++ ": No such file or directory")
        status := 1
    return status
  | _ => refuse 1 "chmod" "missing operand"

/-! ## Listing -/

def listTable : OptionTable :=
  ⟨"1aAlrtdRFpShUinsgokqbCx", "Iw", [("all", 'a'), ("almost-all", 'A'), ("reverse", 'r'),
    ("directory", 'd'), ("recursive", 'R'), ("classify", 'F'), ("human-readable", 'h')]⟩

def listed (p : Parsed) (name : String) (entry : Option DiskEntry) : String :=
  let sign := match entry with
    | some .directory => if p.has 'F' || p.has 'p' then "/" else ""
    | some (.file _ true) => if p.has 'F' then "*" else ""
    | _ => ""
  if p.has 'l' then
    let (mode, size) := match entry with
      | some .directory => ("drwxr-xr-x", 4096)
      | some (.file content true) => ("-rwxr-xr-x", content.size)
      | some (.file content false) => ("-rw-r--r--", content.size)
      | _ => ("-rwxr-xr-x", 0)
    mode ++ " 1 root root " ++ toString size ++ " Jan  1 00:00 " ++ name ++ sign ++ "\n"
  else name ++ sign ++ "\n"

def listDirectory (p : Parsed) (d : Disk) (names : List RawText) : String × List RawText :=
  let here : RawText := [Path.dot]
  let up : RawText := [Path.dot, Path.dot]
  let below := d.namesBelow names
  let shown := below.filter fun n => p.has 'a' || p.has 'A' || n.head? ≠ some Path.dot
  let shown := (if p.has 'a' then [here, up] else []) ++ shown
  let sized (n : RawText) : Nat := match d.find? (names ++ [n]) with
    | some (.file content _) => content.size
    | _ => 4096
  let shown := if p.has 'S' then shown.mergeSort fun a b => sized b ≤ sized a else shown
  let shown := if p.has 'r' then shown.reverse else shown
  let entryOf (n : RawText) : Option DiskEntry :=
    if n = here || n = up then some .directory else d.find? (names ++ [n])
  let total := if p.has 'l' then "total 0\n" else ""
  (total ++ String.join (shown.map fun n => listed p (ofRaw n) (entryOf n)),
    shown.filter fun n => n ≠ here && n ≠ up && entryOf n = some .directory)

def listAll (p : Parsed) (d : Disk) : Nat → String → List RawText → String
  | 0, _, _ => ""
  | n + 1, path, names =>
    let (text, below) := listDirectory p d names
    path ++ ":\n" ++ text ++ String.join (below.map fun name =>
      "\n" ++ listAll p d n (path ++ "/" ++ ofRaw name) (names ++ [name]))

def ls : Utility := fun args => withOptions 2 "ls" listTable args fun p => do
  let paths := if p.operands.isEmpty then ["."] else p.operands
  let paths := paths.mergeSort fun a b => decide (a ≤ b)
  let d := (← get).disk
  let mut status := 0
  let mut files := ""
  let mut directories := []
  for path in if p.has 'r' then paths.reverse else paths do
    match d.locate (pathOf path) with
    | .found names =>
      if d.find? names = some .directory && !p.has 'd' then
        directories := directories ++ [(path, names)]
      else files := files ++ listed p path (d.find? names)
    | _ =>
      grumble "ls" ("cannot access " ++ quoted path ++ ": No such file or directory")
      status := 2
  discard (say files)
  let titled := p.has 'R' || 1 < p.operands.length
  let texts := directories.map fun (path, names) =>
    if p.has 'R' then listAll p d 40 path names
    else (if titled then path ++ ":\n" else "") ++ (listDirectory p d names).1
  discard (say ((if files ≠ "" && !texts.isEmpty then "\n" else "") ++ "\n".intercalate texts))
  return status

def stat : Utility := fun args =>
  withOptions 1 "stat" ⟨"Lft", "c", [("format", 'c'), ("printf", 'c')]⟩ args fun p => do
  let mut status := 0
  for path in p.operands do
    match ← entry? path with
    | none =>
      grumble "stat" ("cannot statx " ++ quoted path ++ ": No such file or directory")
      status := 1
    | some entry =>
      let (size, kind, mode) := match entry with
        | .file content executable =>
          (content.size, if content.isEmpty then "regular empty file" else "regular file",
            if executable then "755" else "644")
        | .directory => (4096, "directory", "755")
        | .program => (0, "regular file", "755")
        | .device _ => (0, "character special file", "666")
      discard (say (fill size kind mode path (((p.value? 'c').getD "%n").toList) ++ "\n"))
  return status
where
  fill (size : Nat) (kind mode path : String) : List Char → String
    | '%' :: c :: r =>
      (match c with
        | 's' => toString size
        | 'n' => path
        | 'F' => kind
        | 'a' => mode
        | '%' => "%"
        | 'U' | 'G' => "root"
        | 'u' | 'g' => "0"
        | 'h' => "1"
        | _ => "?") ++ fill size kind mode path r
    | c :: r => c.toString ++ fill size kind mode path r
    | [] => ""

/-! ## Names -/

def withoutSuffix (name suffix : String) : String :=
  if suffix ≠ "" && name ≠ suffix && name.endsWith suffix then
    String.ofList (name.toList.take (name.length - suffix.length))
  else name

def basename : Utility := fun args =>
  withOptions 1 "basename" ⟨"az", "s", [("multiple", 'a'), ("suffix", 's'), ("zero", 'z')]⟩ args
    fun p => do
  let suffix := (p.value? 's').getD ""
  let showAll (paths : List String) (suffix : String) : Act Nat :=
    sayAll "basename" (joinLinesOf (paths.map fun path => withoutSuffix (baseOf path) suffix))
  match p.operands with
  | [] => refuse 1 "basename" "missing operand"
  | paths =>
    if p.has 'a' || p.has 's' then showAll paths suffix
    else
      match paths with
      | [path] => showAll [path] ""
      | [path, suffix] => showAll [path] suffix
      | _ => refuse 1 "basename" "extra operand"

def dirname : Utility := fun args =>
  withOptions 1 "dirname" ⟨"z", "", [("zero", 'z')]⟩ args fun p => do
  if p.operands.isEmpty then return ← refuse 1 "dirname" "missing operand"
  sayAll "dirname" (joinLinesOf (p.operands.map directoryOf))

def absolute (names : List RawText) : String :=
  "/" ++ "/".intercalate (names.map ofRaw)

def realpath (program : String) (needsFlag : Bool) : Utility := fun args =>
  withOptions 1 program ⟨"fmesqnz", "", [("canonicalize", 'f')]⟩ args fun p => do
  if needsFlag && !p.has 'f' && !p.has 'e' && !p.has 'm' then return 1
  let mut status := 0
  for path in p.operands do
    match ← place path with
    | .found names | .vacant names => discard (say (absolute names ++ "\n"))
    | _ =>
      grumble program (path ++ ": No such file or directory")
      status := 1
  return status

def pwd : Utility := fun _ => do
  sayAll "pwd" (absolute (← get).disk.base ++ "\n")

/-! ## Comparing -/

def cmp : Utility := fun args =>
  withOptions 2 "cmp" ⟨"sbl", "in", [("silent", 's'), ("quiet", 's')]⟩ args fun p => do
  match p.operands.take 2 with
  | [] => refuse 2 "cmp" "missing operand"
  | operands =>
    let (a, b) := (operands.head?.getD "-", (operands[1]?).getD "-")
    match ← readFile? a, ← readFile? b with
    | some x, some y =>
      let same := ((x.toList.zip y.toList).takeWhile fun (c, d) => c = d).length
      if x = y then return 0
      let lines := (x.toList.take same).count '\n'
      unless p.has 's' do
        if same = x.length || same = y.length then
          let short := if same = x.length then a else b
          grumble "cmp" ("EOF on " ++ short ++ " after byte " ++ toString same)
        else
          discard (say (a ++ " " ++ b ++ " differ: char " ++ toString (same + 1) ++ ", line " ++
            toString (lines + 1) ++ "\n"))
      return 1
    | none, _ => refuse 2 "cmp" (a ++ ": " ++ (← readingFault a))
    | _, none => refuse 2 "cmp" (b ++ ": " ++ (← readingFault b))

/-- How long the longest common part of two lists is, for all their ends: a row for each element
of the first, last row first. -/
def commonLengths (as bs : List String) : List (List Nat) :=
  as.reverse.foldl (fun rows a =>
    let below := rows.head?.getD (List.replicate (bs.length + 1) 0)
    let row := ((bs.zip (below.zip (below.drop 1))).reverse.foldl (fun row (b, here, diagonal) =>
      (if a = b then diagonal + 1 else max here (row.head?.getD 0)) :: row) [0])
    row :: rows) [List.replicate (bs.length + 1) 0]

inductive Change
  | keep
  | drop (line : String)
  | insert (line : String)
  deriving DecidableEq, Repr

def changes : List String → List String → List (List Nat) → List Change
  | [], bs, _ => bs.map .insert
  | as, [], _ => as.map .drop
  | a :: as, b :: bs, rows =>
    if a = b then .keep :: changes as bs ((rows.drop 1).map (·.drop 1))
    else
      let down := ((rows[1]?).bind (·[0]?)).getD 0
      let right := ((rows[0]?).bind (·[1]?)).getD 0
      if right ≤ down then .drop a :: changes as (b :: bs) (rows.drop 1)
      else .insert b :: changes (a :: as) bs (rows.map (·.drop 1))
termination_by as bs => as.length + bs.length

def lineRange (start count : Nat) : String :=
  if count ≤ 1 then toString (if count = 0 then start else start + 1)
  else toString (start + 1) ++ "," ++ toString (start + count)

/-- Changes as they are listed, from these numbers of lines on. -/
def showChanges : Nat → Nat → Nat → List Change → String
  | 0, _, _, _ => ""
  | n + 1, i, j, cs =>
    match cs with
    | [] => ""
    | .keep :: rest => showChanges n (i + 1) (j + 1) rest
    | _ =>
      let hunk := cs.takeWhile (· ≠ .keep)
      let old := hunk.filterMap fun c => match c with
        | .drop l => some l
        | _ => none
      let new := hunk.filterMap fun c => match c with
        | .insert l => some l
        | _ => none
      let sign := if old.isEmpty then "a" else if new.isEmpty then "d" else "c"
      lineRange i old.length ++ sign ++ lineRange j new.length ++ "\n" ++
        String.join (old.map fun l => "< " ++ l ++ "\n") ++
        (if sign = "c" then "---\n" else "") ++
        String.join (new.map fun l => "> " ++ l ++ "\n") ++
        showChanges n (i + old.length) (j + new.length) (cs.drop hunk.length)

def diff : Utility := fun args =>
  withOptions 2 "diff" ⟨"qsubwiBNra", "U", [("brief", 'q'), ("unified", 'u')]⟩ args fun p => do
  match p.operands with
  | [a, b] =>
    match ← readFile? a, ← readFile? b with
    | some x, some y =>
      if x = y then return 0
      if p.has 'q' then
        discard (say ("Files " ++ a ++ " and " ++ b ++ " differ\n"))
      else
        let (as, bs) := ((splitLines x).1, (splitLines y).1)
        discard (say (showChanges (as.length + bs.length + 1) 0 0
          (changes as bs (commonLengths as bs))))
      return 1
    | none, _ => refuse 2 "diff" (a ++ ": " ++ (← readingFault a))
    | _, none => refuse 2 "diff" (b ++ ": " ++ (← readingFault b))
  | _ => refuse 2 "diff" "missing operand"

end TableMigration.Shell.Files
