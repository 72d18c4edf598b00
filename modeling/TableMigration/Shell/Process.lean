import TableMigration.Shell.Utility.Finding
import TableMigration.Shell.Utility.Lookup
import TableMigration.Shell.Utility.Running

/-!
# Processes

Programs are found by their names and run with the parameters that are exported to them. Some of
them run others, shells among them.
-/

namespace TableMigration.Shell

/-- Runs a command; the flag says whether its status is tested. -/
abbrev Evaluator := Bool → Command → Act Unit

/-! ## Texts -/

/-- Runs a text line by line, up to a line that is not well formed. A text without commands
succeeds. -/
def runText (evaluate : Evaluator) (tested : Bool) (text : String) : Act Unit := do
  let s ← get
  go (text.length + 2) { Reader.ofText text with nextDocument := s.nextDocument } false
where
  go : Nat → Reader → Bool → Act Unit
    | 0, _, _ => return
    | n + 1, r, ran => do
      match { r with aliases := (← get).aliases }.next with
      | .finished => unless ran do setStatus 0
      | .broken =>
        modify fun s => { s with line := r.line }
        fail "Syntax error"
      | .read c r =>
        modify fun s => { s with
          documents := r.documents ++ s.documents
          nextDocument := r.nextDocument }
        let r := { r with documents := [] }
        match c with
        | none => go n r ran
        | some c =>
          evaluate tested c
          go n r true

/-- Runs what was set to be run at the end, and keeps the status if that does not change it. -/
def runExitTrap (evaluate : Evaluator) : Act Unit := do
  let s ← get
  match s.traps.lookup "EXIT" with
  | none => return
  | some text =>
    set { s with
      traps := s.traps.filter (·.1 ≠ "EXIT")
      options := s.options.filter (· ≠ 'e') }
    match ← (runText evaluate false text).attempt with
    | .error .exit | .error .fault => return
    | .error (.killed p n) => throw (.killed p n)
    | .error .expired => throw .expired
    | _ => setStatus s.status

/-- Runs something as a shell does: whatever ends it ends here, but for signals. -/
def asShell (evaluate : Evaluator) (body : Act Unit) : Act Nat := do
  match ← body.attempt with
  | .error (.killed p n) => throw (.killed p n)
  | .error .expired => throw .expired
  | _ =>
    runExitTrap evaluate
    return (← get).status % 256

/-- Traps that a new process keeps: signals that are ignored. -/
def keptTraps (traps : List (String × String)) : List (String × String) :=
  traps.filter fun t => t.2 = "" && t.1 ≠ "EXIT"

/-! ## Shells -/

structure Invocation where
  text : String
  name : String
  arguments : List String
  options : List Char

def optionNames : List (String × Char) :=
  [("errexit", 'e'), ("noglob", 'f'), ("ignoreeof", 'I'), ("interactive", 'i'), ("monitor", 'm'),
   ("noexec", 'n'), ("stdin", 's'), ("xtrace", 'x'), ("verbose", 'v'), ("vi", 'V'),
   ("emacs", 'E'), ("noclobber", 'C'), ("allexport", 'a'), ("notify", 'b'), ("nounset", 'u'),
   ("nolog", 'L'), ("debug", 'D')]

structure ShellOptions where
  options : List Char
  /-- Whether the text is an argument. -/
  hasText : Bool
  /-- Whether the arguments after the options were set apart from them. -/
  ended : Bool
  rest : List String

def readOptions : List Char → Bool → List String → Except String ShellOptions
  | options, hasText, [] => .ok ⟨options, hasText, false, []⟩
  | options, hasText, arg :: args =>
    match arg.toList with
    | ['-', '-'] => .ok ⟨options, hasText, true, args⟩
    | ['-'] => .ok ⟨options, hasText, true, args⟩
    | sign :: c :: cs =>
      if sign ≠ '-' && sign ≠ '+' then .ok ⟨options, hasText, false, arg :: args⟩
      else
        let letters := c :: cs
        let set (options : List Char) (c : Char) : List Char :=
          if sign = '-' then c :: options.filter (· ≠ c) else options.filter (· ≠ c)
        let named := letters.contains 'o'
        let plain := letters.filter fun c => c ≠ 'c' && c ≠ 'o' && c ≠ 'l'
        match plain.find? fun c => !Session.optionLetters.contains c with
        | some c => .error (String.ofList [sign, c])
        | none =>
          let options := plain.foldl set options
          let hasText := hasText || letters.contains 'c'
          if !named then readOptions options hasText args
          else
            match args with
            | [] => .ok ⟨options, hasText, false, []⟩
            | name :: args =>
              match optionNames.lookup name with
              | some c => readOptions (set options c) hasText args
              | none => .error (String.ofList [sign, 'o', ' '] ++ name)
    | _ => .ok ⟨options, hasText, false, arg :: args⟩

def Invocation.read (shell : String) (args : List String) : Act (Except String Invocation) := do
  match readOptions [] false args with
  | .error option => return .error ("Illegal option " ++ option)
  | .ok o =>
    if o.hasText then
      match o.rest with
      | [] => return .error "-c requires an argument"
      | [text] => return .ok ⟨text, shell, [], o.options⟩
      | text :: name :: arguments => return .ok ⟨text, name, arguments, o.options⟩
    match o.options.contains 's', o.rest with
    | false, path :: arguments =>
      match ← readFile? path with
      | some text => return .ok ⟨text, path, arguments, o.options⟩
      | none =>
        if (← entry? path).isSome then return .ok ⟨"", path, arguments, o.options⟩
        return .error ("cannot open " ++ path ++ ": No such file")
    | _, arguments =>
      let text := (← readAll? 0).getD ""
      return .ok ⟨text, shell, arguments, 's' :: o.options.filter (· ≠ 's')⟩

/-- Parameters that every shell sets for itself. -/
def ownBindings (disk : Disk) : List (String × Binding) :=
  [("IFS", ⟨some " \t\n", false, false⟩), ("OPTIND", ⟨some "1", false, false⟩),
   ("PS1", ⟨some "# ", false, false⟩), ("PS2", ⟨some "> ", false, false⟩),
   ("PS4", ⟨some "+ ", false, false⟩), ("PWD", ⟨some (Files.absolute disk.base), true, false⟩)]

def Session.fork (s : Session) : Session :=
  let own := ownBindings s.disk
  { s with
    bindings := own ++ s.bindings.filter fun b =>
      b.2.exported && b.2.value.isSome && (own.lookup b.1).isNone
    functions := []
    aliases := []
    options := []
    status := 0
    captureStatus := 0
    line := 0
    process := s.nextProcess
    parent := s.process
    nextProcess := s.nextProcess + 1
    job := none
    jobs := []
    traps := keptTraps s.traps
    signals := []
    locals := []
    loops := 0
    inFunction := false
    optionIndex := 1
    optionPlace := none }

/-- Options by which one kind of shell leaves out what only matters at a terminal. -/
def terminalOptions : List String :=
  ["--norc", "--noprofile", "--noediting", "--posix"]

def runShell (evaluate : Evaluator) (shell : String) (args : List String) : Act Nat := do
  let args := if shell = "bash" then args.dropWhile terminalOptions.contains else args
  let (r, inner) ← Act.apart do
    modify fun s => { s.fork with name := shell, plainEcho := shell = "bash" }
    match ← Invocation.read shell args with
    | .error text =>
      discard (write 2 (shell ++ ": 0: " ++ text ++ "\n"))
      return 2
    | .ok i =>
      modify fun s => { s with name := i.name, arguments := i.arguments, options := i.options }
      asShell evaluate (runText evaluate false i.text)
  processStatus inner.process r

/-! ## Programs -/

def cannotRun (caller name : String) (status : Nat) : Act Nat := do
  let text := if status = 127 then
      if caller = "" then "not found" else "No such file or directory"
    else "Permission denied"
  if caller = "" then complain (name ++ ": " ++ text)
  else grumble caller (Files.quoted name ++ ": " ++ text)
  return status

def interpreter? (content : String) : Option (List String) :=
  match content.toList with
  | '#' :: '!' :: r =>
    let line := (r.takeWhile (· ≠ '\n')).dropWhile isBlank
    let path := line.takeWhile fun c => !isBlank c
    let arg := ((line.drop path.length).dropWhile isBlank).reverse.dropWhile isBlank
    some (String.ofList path :: if arg.isEmpty then [] else [String.ofList arg.reverse])
  | _ => none

/-- Runs a program with its arguments on behalf of another one, or of the shell itself. -/
def launch (evaluate : Evaluator) : Nat → String → List String → Act Nat
  | 0, _, _ | _, _, [] => return 0
  | n + 1, caller, name :: args => do
    let s ← get
    let run (caller : String) : List String → Act Nat := launch evaluate n caller
    match findProgram s name with
    | (.missing, _) => cannotRun caller name 127
    | (.notExecutable, _) => cannotRun caller name 126
    | (.script path content, _) =>
      match interpreter? content with
      | none => runShell evaluate "sh" (path :: args)
      | some line =>
        match s.disk.lookup? (pathOf (line.headD "")) with
        | some _ => run caller (line ++ path :: args)
        | none => cannotRun caller name 127
    | (.utility base, _) =>
      match base with
      | "sh" | "dash" => runShell evaluate (Files.baseOf name) args
      | "bash" => runShell evaluate "bash" args
      | "env" => runEnv (run "env") args
      | "nice" => runNice (run "nice") args
      | "nohup" => run "nohup" args
      | "stdbuf" | "setsid" => run base (args.dropWhile fun a => a.startsWith "-")
      | "timeout" => runTimeout (run "timeout") args
      | "xargs" => runXargs (run "xargs") args
      | "find" => runFind (run "find") args
      | "which" => runWhich args
      | base =>
        match utility? base with
        | some utility => utility args
        | none => return 1

end TableMigration.Shell
