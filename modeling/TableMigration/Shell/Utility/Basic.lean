import TableMigration.Shell.Session

/-!
# Programs that a shell runs

What programs have in common: the options among their arguments, the files they read and the way in
which they complain. A program gives the status with which it ends.
-/

namespace TableMigration.Shell

/-- A program by what it does with its arguments. -/
abbrev Utility := List String → Act Nat

def say (text : String) : Act Bool :=
  write 1 text

def grumble (program text : String) : Act Unit :=
  discard (write 2 (program ++ ": " ++ text ++ "\n"))

/-- Prints all there is to print; a program that cannot do that fails. -/
def sayAll (program text : String) : Act Nat := do
  if ← say text then return 0
  grumble program "write error"
  return 1

def refuse (status : Nat) (program text : String) : Act Nat := do
  grumble program text
  return status

/-- The options of a program: letters, those that take a value, and names that stand for letters. -/
structure OptionTable where
  flags : String
  valued : String
  names : List (String × Char)
  deriving DecidableEq, Repr

structure Parsed where
  options : List (Char × String)
  operands : List String
  deriving DecidableEq, Repr

namespace Parsed

def has (p : Parsed) (letter : Char) : Bool :=
  p.options.any (·.1 = letter)

def value? (p : Parsed) (letter : Char) : Option String :=
  (p.options.filter (·.1 = letter)).getLast?.map (·.2)

def add (p : Parsed) (letter : Char) (value : String) : Parsed :=
  { p with options := (letter, value) :: p.options }

end Parsed

namespace OptionTable

/-- Reads letters that share a dash; one that takes a value takes the rest, or else the next
argument. -/
def readLetters (t : OptionTable) :
    List Char → List String → Option (List (Char × String) × List String)
  | [], args => some ([], args)
  | c :: cs, args =>
    if t.flags.toList.contains c then
      (t.readLetters cs args).map fun (options, args) => ((c, "") :: options, args)
    else if t.valued.toList.contains c then
      match cs, args with
      | [], value :: args => some ([(c, value)], args)
      | [], [] => none
      | cs, args => some ([(c, String.ofList cs)], args)
    else none

/-- Reads an option by its name, which may be cut short. -/
def readName (t : OptionTable) (text : List Char) (args : List String) :
    Option (List (Char × String) × List String) :=
  let name := String.ofList (text.takeWhile (· ≠ '='))
  let given := text.drop name.length
  let letters := match t.names.lookup name with
    | some c => [c]
    | none => (t.names.filter fun n => name.toList.isPrefixOf n.1.toList).map (·.2)
  match letters with
  | [c] =>
    if t.flags.toList.contains c then if given = [] then some ([(c, "")], args) else none
    else
      match given, args with
      | _ :: value, args => some ([(c, String.ofList value)], args)
      | [], value :: args => some ([(c, value)], args)
      | [], [] => none
  | _ => none

/-- Separates options from other arguments, which may stand among them. -/
def parse? (t : OptionTable) : Nat → List String → Option Parsed
  | 0, _ => none
  | _, [] => some ⟨[], []⟩
  | n + 1, arg :: args =>
    match arg.toList with
    | ['-', '-'] => some ⟨[], args⟩
    | '-' :: '-' :: name =>
      match t.readName name args with
      | some (options, args) =>
        (t.parse? n args).map fun p => { p with options := options ++ p.options }
      | none => none
    | '-' :: c :: cs =>
      match t.readLetters (c :: cs) args with
      | some (options, args) =>
        (t.parse? n args).map fun p => { p with options := options ++ p.options }
      | none => none
    | _ => (t.parse? n args).map fun p => { p with operands := arg :: p.operands }

end OptionTable

def withOptions (status : Nat) (program : String) (t : OptionTable) (args : List String)
    (act : Parsed → Act Nat) : Act Nat :=
  match t.parse? (args.length + 1) args with
  | some p => act p
  | none => refuse status program "invalid option"

/-! ## Files -/

def entry? (path : String) : Act (Option DiskEntry) := do
  return (← get).disk.lookup? (pathOf path)

def readingFault (path : String) : Act String := do
  return match (← entry? path) with
    | some .directory => "Is a directory"
    | some _ => "Permission denied"
    | none => "No such file or directory"

def readFile? (path : String) : Act (Option String) := do
  if path = "-" then readAll? 0
  else return ((← get).disk.readBytes (pathOf path)).map ofBytes

/-- The contents of files with their names, and whether all could be read. Without names the input
is read. -/
def readFiles (program : String) (paths : List String) : Act (List (String × String) × Bool) := do
  let mut contents := []
  let mut fine := true
  for path in if paths.isEmpty then ["-"] else paths do
    match ← readFile? path with
    | some text => contents := contents ++ [(path, text)]
    | none =>
      fine := false
      grumble program (path ++ ": " ++ (← readingFault path))
  return (contents, fine)

/-- Lines without their ends, and whether the last one has an end. -/
def splitLines (text : String) : List String × Bool :=
  match text.toList.reverse with
  | [] => ([], true)
  | '\n' :: _ => ((text.splitOn "\n").dropLast, true)
  | _ => (text.splitOn "\n", false)

def keepLines (text : String) : List String :=
  let (lines, ended) := splitLines text
  if ended then lines.map (· ++ "\n")
  else (lines.dropLast.map (· ++ "\n")) ++ lines.getLast?.toList

def joinLinesOf (lines : List String) : String :=
  String.join (lines.map (· ++ "\n"))

/-- A number of bytes or lines, which may have a unit. -/
def readSize? (text : String) : Option Nat :=
  let (n, rest) := digits 10 0 text.toList
  if rest.length = text.length then none
  else
    match String.ofList rest with
    | "" => some n
    | "b" => some (n * 512)
    | "k" | "K" => some (n * 1024)
    | "M" => some (n * 1048576)
    | _ => none

def changeDisk (change : Disk → Option Disk) : Act Bool := do
  let s ← get
  match change s.disk with
  | some disk =>
    set { s with disk }
    return true
  | none => return false

end TableMigration.Shell
