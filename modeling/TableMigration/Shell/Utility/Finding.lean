import TableMigration.Shell.Utility.Files

/-!
# Finding files

The files below directories for which an expression holds, and what is done with them.
-/

namespace TableMigration.Shell

inductive Finding
  | name (pattern : Pattern)
  | path (pattern : Pattern)
  | kind (kinds : List Char)
  | isEmpty
  | size (compare : Ordering) (unit n : Nat)
  | print (stop : Char)
  | delete
  | prune
  | run (command : List String) (together : Bool)
  | always (verdict : Bool)
  | not (f : Finding)
  | both (a b : Finding)
  | either (a b : Finding)

def textPattern (text : String) (folds : Bool) : Pattern :=
  let p := Pattern.ofLetters (text.toList.map fun c => ⟨if folds then c.toLower else c, false⟩)
  if folds then p.map fun part => match part with
    | .one test => .one fun c => test c.toLower
    | part => part
  else p

def readFinding : Nat → Nat → List String → Option (Finding × List String)
  | 0, _, _ => none
  | n + 1, 0, ws => do
    let (a, rest) ← readFinding n 1 ws
    match rest with
    | "-o" :: rest | "-or" :: rest =>
      let (b, rest) ← readFinding n 0 rest
      return (.either a b, rest)
    | _ => return (a, rest)
  | n + 1, 1, ws => do
    let (a, rest) ← readFinding n 2 ws
    match rest with
    | [] | "-o" :: _ | "-or" :: _ | ")" :: _ => return (a, rest)
    | "-a" :: rest | "-and" :: rest | rest =>
      let (b, rest) ← readFinding n 1 rest
      return (.both a b, rest)
  | n + 1, _, ws =>
    match ws with
    | "!" :: rest | "-not" :: rest => (readFinding n 2 rest).map fun (f, rest) => (.not f, rest)
    | "(" :: rest => do
      let (f, rest) ← readFinding n 0 rest
      match rest with
      | ")" :: rest => return (f, rest)
      | _ => none
    | "-name" :: p :: rest => some (.name (textPattern p false), rest)
    | "-iname" :: p :: rest => some (.name (textPattern p true), rest)
    | "-path" :: p :: rest | "-wholename" :: p :: rest => some (.path (textPattern p false), rest)
    | "-type" :: k :: rest => some (.kind (k.toList.filter (· ≠ ',')), rest)
    | "-empty" :: rest => some (.isEmpty, rest)
    | "-true" :: rest => some (.always true, rest)
    | "-false" :: rest => some (.always false, rest)
    | "-print" :: rest => some (.print '\n', rest)
    | "-print0" :: rest => some (.print '\x00', rest)
    | "-delete" :: rest => some (.delete, rest)
    | "-prune" :: rest => some (.prune, rest)
    | "-size" :: size :: rest =>
      let (order, cs) := match size.toList with
        | '+' :: r => (Ordering.gt, r)
        | '-' :: r => (Ordering.lt, r)
        | r => (Ordering.eq, r)
      let (k, unit) := digits 10 0 cs
      let unit := match unit with
        | ['c'] => 1
        | ['k'] => 1024
        | ['M'] => 1048576
        | _ => 512
      some (.size order unit k, rest)
    | "-exec" :: rest =>
      let command := rest.takeWhile fun w => w ≠ ";" && w ≠ "+"
      match rest.drop command.length with
      | stop :: rest => some (.run command (stop = "+"), rest)
      | [] => none
    | _ => none

/-- Whether something other than a verdict comes of an expression. -/
def Finding.acts : Finding → Bool
  | .print _ | .delete | .run _ _ => true
  | .not f => f.acts
  | .both a b | .either a b => a.acts || b.acts
  | _ => false

abbrev Gathered := List (List String × String)

def Finding.decide (launch : List String → Act Nat) (path : String) (names : List RawText) :
    Finding → Gathered → Act (Bool × Gathered)
  | .name p, g => return (p.matches (Files.baseOf path).toList, g)
  | .path p, g => return (p.matches path.toList, g)
  | .kind kinds, g => do
    let kind := match (← get).disk.find? names with
      | some .directory => 'd'
      | some (.device _) => 'c'
      | _ => 'f'
    return (kinds.contains kind, g)
  | .isEmpty, g => do
    let d := (← get).disk
    return (match d.find? names with
      | some (.file content _) => content.isEmpty
      | some .directory => Files.isEmptyDirectory d names
      | _ => false, g)
  | .size order unit n, g => do
    let size := match (← get).disk.find? names with
      | some (.file content _) => content.size
      | _ => 4096
    return (compare ((size + unit - 1) / unit) n == order, g)
  | .print stop, g => do
    discard (say (path ++ stop.toString))
    return (true, g)
  | .delete, g => do
    modify fun s => { s with disk := s.disk.erase names }
    return (true, g)
  | .prune, g => return (true, g)
  | .always verdict, g => return (verdict, g)
  | .run command together, g => do
    if together then return (true, g ++ [(command, path)])
    let call := command.map fun word => path.intercalate (word.splitOn "\x7b\x7d")
    return ((← launch call) = 0, g)
  | .not f, g => do
    let (verdict, g) ← f.decide launch path names g
    return (!verdict, g)
  | .both a b, g => do
    let (verdict, g) ← a.decide launch path names g
    if verdict then b.decide launch path names g else return (false, g)
  | .either a b, g => do
    let (verdict, g) ← a.decide launch path names g
    if verdict then return (true, g) else b.decide launch path names g

/-- The paths below a path with how deep they are. -/
def pathsBelow (d : Disk) : Nat → Nat → String → List RawText → List (Nat × String × List RawText)
  | 0, _, _, _ => []
  | n + 1, depth, path, names =>
    (depth, path, names) ::
      if d.find? names = some .directory then
        (d.namesBelow names).flatMap fun name =>
          pathsBelow d n (depth + 1)
            (if path.endsWith "/" then path ++ ofRaw name else path ++ "/" ++ ofRaw name)
            (names ++ [name])
      else []

def runFind (launch : List String → Act Nat) : Utility := fun args => do
  let paths := args.takeWhile fun a => !a.startsWith "-" && a ≠ "(" && a ≠ "!"
  let words := args.drop paths.length
  let bound (name : String) : Option Nat :=
    ((words.zip (words.drop 1)).find? fun w => w.1 = name).bind fun w => readSize? w.2
  let rec unbounded : List String → List String
    | "-maxdepth" :: _ :: rest | "-mindepth" :: _ :: rest => unbounded rest
    | "-depth" :: rest => unbounded rest
    | w :: rest => w :: unbounded rest
    | [] => []
  let words := unbounded words
  let found := if words.isEmpty then some (Finding.always true, [])
    else readFinding (4 * words.length + 4) 0 words
  match found with
  | some (f, []) =>
    let f := if f.acts then f else .both f (.print '\n')
    let mut status := 0
    let mut gathered : Gathered := []
    for path in if paths.isEmpty then ["."] else paths do
      let d := (← get).disk
      match d.locate (pathOf path) with
      | .found names =>
        let all := pathsBelow d 60 0 path names
        let all := all.filter fun (depth, _) =>
          ((bound "-mindepth").getD 0) ≤ depth && (bound "-maxdepth").all (depth ≤ ·)
        let deletes := words.contains "-delete" || args.contains "-depth"
        for (_, path, names) in if deletes then all.reverse else all do
          let (_, g) ← f.decide launch path names gathered
          gathered := g
      | _ =>
        grumble "find" (Files.quoted path ++ ": No such file or directory")
        status := 1
    match gathered with
    | [] => pure ()
    | (command, _) :: _ =>
      let call := command.flatMap fun w =>
        if w = "\x7b\x7d" then gathered.map (·.2) else [w]
      if (← launch call) ≠ 0 then status := 1
    return status
  | _ => refuse 1 "find" "unknown predicate"

end TableMigration.Shell
