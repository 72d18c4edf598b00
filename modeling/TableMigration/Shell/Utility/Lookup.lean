import TableMigration.Shell.Condition
import TableMigration.Shell.Printing
import TableMigration.Shell.Utility.Files
import TableMigration.Shell.Utility.Hosts
import TableMigration.Shell.Utility.LineEditor
import TableMigration.Shell.Utility.Lines
import TableMigration.Shell.Utility.Search
import TableMigration.Shell.Utility.Sorting

/-!
# Programs by their names

Where a program is found, and what those programs do that run no others.
-/

namespace TableMigration.Shell

/-- What is found under the name of a program. -/
inductive Program
  | utility (name : String)
  | script (path : String) (content : String)
  | notExecutable
  | missing
  deriving DecidableEq, Repr

def programAt (disk : Disk) (path : String) : Program :=
  match disk.lookup? (pathOf path) with
  | some .program => .utility (Files.baseOf path)
  | some (.file content true) => .script path (ofBytes content)
  | some _ => .notExecutable
  | none => .missing

def searchPath (s : Session) : List String :=
  (((s.value? "PATH").getD standardPath).splitOn ":").map fun d => if d = "" then "." else d

def findProgram (s : Session) (name : String) : Program × String :=
  if name.toList.contains '/' then (programAt s.disk name, name)
  else if name = "" then (.missing, name)
  else
    let found := (searchPath s).filterMap fun d =>
      let path := d ++ "/" ++ name
      match programAt s.disk path with
      | .missing => none
      | .notExecutable =>
        if s.disk.lookup? (pathOf path) = some .directory then none else some (.notExecutable, path)
      | p => some (p, path)
    let runnable := found.filter (·.1 ≠ .notExecutable)
    (runnable.head?.orElse fun _ => found.head?).getD (.missing, name)

def testStatus (program : String) : Utility := fun args => do
  let args ←
    if program = "[" then
      if args.getLast? = some "]" then pure (some args.dropLast) else pure none
    else pure (some args)
  match args with
  | none => refuse 2 program "missing ]"
  | some args =>
    match evaluateCondition (← get).disk args with
    | .ok holds => return if holds then 0 else 1
    | .error fault => refuse 2 program fault.message

def runPrintf : Utility := fun args => do
  let dashed := match args with
    | first :: _ => 1 < first.length && first.toList.head? = some '-'
    | [] => false
  if dashed && args.head? ≠ some "--" then return ← refuse 2 "printf" "Illegal option"
  match if dashed then args.drop 1 else args with
  | [] => refuse 2 "printf" "usage: printf format [arg ...]"
  | format :: args =>
    let p := printf format args
    for text in p.complaints do grumble "printf" text
    let taken ← say (String.ofList p.text)
    match p.fault with
    | some text => refuse 2 "printf" text
    | none => return if taken && p.complaints.isEmpty then 0 else 1

def utility? (name : String) : Option Utility :=
  match name with
  | "[" | "test" => some (testStatus name)
  | "basename" => some Files.basename
  | "cat" => some Lines.cat
  | "chmod" => some Files.chmod
  | "cmp" => some Files.cmp
  | "comm" => some Sorting.comm
  | "cp" => some Files.cp
  | "cut" => some Sorting.cut
  | "date" => some Hosts.date
  | "diff" => some Files.diff
  | "dirname" => some Files.dirname
  | "echo" => some fun args => sayAll "echo" (plainEcho args)
  | "egrep" => some (Search.grep true false)
  | "expr" => some Search.expr
  | "false" => some Hosts.failing
  | "fgrep" => some (Search.grep false true)
  | "fold" => some Lines.fold
  | "grep" => some (Search.grep false false)
  | "head" => some Lines.head
  | "hostname" => some (Hosts.fixed "hostname" "localhost")
  | "id" => some Hosts.id
  | "ln" => some Files.ln
  | "ls" => some Files.ls
  | "mkdir" => some Files.mkdir
  | "mktemp" => some Files.mktemp
  | "mv" => some Files.mv
  | "nl" => some Lines.nl
  | "nproc" => some (Hosts.fixed "nproc" "1")
  | "paste" => some Lines.paste
  | "printenv" => some Hosts.printenv
  | "printf" => some runPrintf
  | "pwd" => some Files.pwd
  | "readlink" => some (Files.realpath "readlink" true)
  | "realpath" => some (Files.realpath "realpath" false)
  | "rev" => some Lines.rev
  | "rm" | "unlink" => some Files.rm
  | "rmdir" => some Files.rmdir
  | "sed" => some LineEditor.sed
  | "seq" => some Lines.seq
  | "sleep" => some Hosts.sleep
  | "sort" => some Sorting.sort
  | "stat" => some Files.stat
  | "sync" | "true" => some Hosts.succeed
  | "tac" => some Lines.tac
  | "tail" => some Lines.tail
  | "tee" => some Lines.tee
  | "touch" => some Files.touch
  | "tr" => some Sorting.tr
  | "truncate" => some Files.truncate
  | "tty" => some fun _ => do
    discard (say "not a tty\n")
    return 1
  | "uname" => some Hosts.uname
  | "uniq" => some Sorting.uniq
  | "wc" => some Lines.wc
  | "whoami" => some (Hosts.fixed "whoami" "root")
  | "yes" => some Lines.yes
  | _ => none

def runWhich : Utility := fun args => do
  let s ← get
  let names := args.filter fun a => !a.startsWith "-"
  let mut status := if names.isEmpty then 1 else 0
  for name in names do
    match findProgram s name with
    | (.utility _, path) | (.script _ _, path) => discard (say (path ++ "\n"))
    | _ => status := 1
  return status

end TableMigration.Shell
