import TableMigration.Script.Run
import TableMigration.Shell.Builtin

/-!
# Running shell scripts

Commands are run over the files of a disk: lists and pipelines, loops and conditions, functions and
programs. Processes that would run side by side run one after another.
-/

namespace TableMigration.Shell

/-! ## Redirections -/

inductive Target
  | file (stream : Nat) (kind : Redirect) (name : String)
  | text (stream : Nat) (text : String)
  | copy (stream source : Nat)
  | none (stream : Nat)
  deriving DecidableEq, Repr

def expandTarget (capture : Capture) : Redirection → Act Target
  | .document stream number => do
    let word := ((← get).documents.lookup number).getD []
    return .text stream (← expandText capture word)
  | .file stream kind word => do
    let name ← expandText capture word
    if kind ≠ .duplicate then return .file stream kind name
    match name.toList with
    | ['-'] => return .none stream
    | [c] => if c.isDigit then return .copy stream (c.toNat - '0'.toNat)
    | _ => pure ()
    fail "Syntax error: Bad fd number"

def cannot (what name why : String) : Act Bool := do
  complain ("cannot " ++ what ++ " " ++ name ++ ": " ++ why)
  return false

def openFile (stream : Nat) (kind : Redirect) (name : String) : Act Bool := do
  let s ← get
  let path := pathOf name
  let reads := kind = .input || kind = .inputOutput
  let connect (c : Channel) : Act Bool := do
    modify fun s => s.openChannel stream c
    return true
  let make (names : List RawText) (executable : Bool) : Act Bool := do
    set { s with disk := s.disk.put names (.file ByteArray.empty executable) }
    connect (.file names 0 reads true (kind = .append))
  match s.disk.locate path with
  | .found names =>
    match s.disk.find? names with
    | some (.file _ executable) =>
      match kind with
      | .truncate =>
        if s.hasOption 'C' then cannot "create" name "File exists" else make names executable
      | .overwrite => make names executable
      | .input => connect (.file names 0 true false false)
      | kind => connect (.file names 0 reads true (kind = .append))
    | some (.device takes) => connect (.device takes)
    | some .program =>
      if kind = .input then connect (.source ByteArray.empty)
      else cannot "create" name "Text file busy"
    | _ =>
      if kind = .input then connect (.file names 0 true false false)
      else cannot "create" name "Is a directory"
  | .vacant names =>
    if kind = .input then cannot "open" name "No such file"
    else if name.endsWith "/" then cannot "create" name "Is a directory"
    else make names false
  | .missing | .blocked =>
    if kind = .input then cannot "open" name "No such file"
    else cannot "create" name "Directory nonexistent"

/-- Connects a stream with its target, which may fail. -/
def connectTarget : Target → Act Bool
  | .file stream kind name => openFile stream kind name
  | .text stream text => do
    modify fun s => s.openChannel stream (.source (toBytes text))
    return true
  | .none stream => do
    modify fun s => s.disconnect stream
    return true
  | .copy stream source => do
    match (← get).descriptors.lookup source with
    | some channel =>
      modify fun s => s.connect stream channel
      return true
    | none =>
      complain (toString source ++ ": Bad file descriptor")
      return false

def connectTargets : List Target → Act Bool
  | [] => return true
  | t :: rest => do
    if ← connectTarget t then connectTargets rest else return false

/-- Ends a shell that stops on failure, where the status is not tested. -/
def checkStatus (tested : Bool) : Act Unit := do
  let s ← get
  if !tested && s.hasOption 'e' && s.status ≠ 0 then throw .exit

def redirected (capture : Capture) (tested : Bool) (rs : List Redirection) (act : Act Unit) :
    Act Unit := do
  let targets ← rs.mapM (expandTarget capture)
  let before := (← get).descriptors
  let r ← Act.attempt do
    if ← connectTargets targets then act
    else
      setStatus 2
      checkStatus tested
  modify fun s => { s with descriptors := before }
  Act.settle r

/-! ## Processes of the shell -/

def inSubshell (evaluate : Evaluator) (prepare : Session → Session) (body : Act Unit) :
    Act Nat := do
  let (r, _) ← Act.apart do
    modify fun s => prepare { s with
      traps := keptTraps s.traps, nextProcess := s.nextProcess + 1, signals := [] }
    asShell evaluate body
  Act.settle r

/-- What commands print, whose status is kept for a command that has no name. -/
def captureOutput (evaluate : Evaluator) : Capture := fun command => do
  match command with
  | none =>
    modify fun s => { s with captureStatus := 0 }
    return ""
  | some c =>
    let n := (← get).nextChannel
    let status ← inSubshell evaluate (·.openChannel 1 (.sink ByteArray.empty)) do
      evaluate false c
    let s ← get
    set { s with captureStatus := status, channels := s.channels.filter (·.1 ≠ n) }
    match s.channels.lookup n with
    | some (.sink bytes) => return ofBytes bytes
    | _ => return ""

def runTraps (evaluate : Evaluator) : Act Unit := do
  let s ← get
  unless s.signals.isEmpty do
    set { s with signals := [] }
    for signal in s.signals do
      if let some text := (← get).traps.lookup signal then
        let status := (← get).status
        runText evaluate false text
        setStatus status

/-! ## Simple commands -/

def assigningCommands : List String :=
  ["export", "readonly", "local", "alias"]

/-- The fields of a command. Assignments among the arguments of some commands are not split. -/
def expandCommand (capture : Capture) : List String → List Word → Act (List String)
  | fields, [] => return fields
  | fields, w :: ws => do
    let command := fields.dropWhile (· = "command")
    let assigns := command.head?.any assigningCommands.contains
    match if assigns then assignment? w else none with
    | some (name, value) =>
      let value ← expandValue capture value
      expandCommand capture (fields ++ [name ++ "=" ++ value]) ws
    | none => expandCommand capture (fields ++ (← expandFields capture w)) ws

def assignAll (capture : Capture) : List (String × Word) → Act (List String)
  | [] => return []
  | (name, w) :: rest => do
    let value ← expandValue capture w
    assign name value
    return (name ++ "=" ++ value) :: (← assignAll capture rest)

def trace (streams : List (Nat × Nat)) (texts : List String) : Act Unit := do
  let s ← get
  if s.hasOption 'x' then
    let sign := (s.value? "PS4").getD "+ "
    set { s with descriptors := streams }
    discard (write 2 (sign ++ " ".intercalate texts ++ "\n"))
    modify fun t => { t with descriptors := s.descriptors }

def callFunction (evaluate : Evaluator) (tested : Bool) (body : Command) (args : List String) :
    Act Unit := do
  let outer ← get
  modify fun s => { s with
    arguments := args
    locals := []
    loops := 0
    inFunction := true
    optionIndex := 1
    optionPlace := none }
  let r ← (evaluate tested body).attempt
  modify fun s =>
    let s := s.locals.foldl (fun s (name, b) =>
      match b with
      | some b => s.putBinding name b
      | none => s.eraseBinding name) s
    { s with
      arguments := outer.arguments
      locals := outer.locals
      loops := outer.loops
      inFunction := outer.inFunction
      optionIndex := outer.optionIndex
      optionPlace := outer.optionPlace }
  match r with
  | .error .return => return
  | r => Act.settle r

/-- How many programs may start one another. -/
def maxLaunches : Nat := 60

def runProgram (evaluate : Evaluator) (fields : List String) : Act Unit := do
  let status ← launch evaluate maxLaunches "" fields
  setStatus status

def replaceShell (evaluate : Evaluator) (fields : List String) : Act Unit := do
  match (findProgram (← get) (fields.headD "")).1 with
  | .missing => failWith 127 ("exec: " ++ fields.headD "" ++ ": not found")
  | .notExecutable => failWith 126 ("exec: " ++ fields.headD "" ++ ": Permission denied")
  | _ =>
    runProgram evaluate fields
    modify fun s => { s with traps := [] }
    throw .exit

/-- Runs a command of the shell; an error ends it alone, unless it is a special one. -/
def runBuiltin (special : Bool) (act : Act Unit) : Act Unit := do
  match ← act.attempt with
  | .error .fault => if special then throw .fault
  | r => Act.settle r

/-- Runs a command by its fields. Behind `command` functions are passed over, and special commands
are not special. -/
def runFields (evaluate : Evaluator) (tested : Bool) (fields : List String) : Act Unit := do
  let rec unwrapped : Bool → List String → Bool × List String
    | _, "command" :: "-p" :: rest => unwrapped true rest
    | _, "command" :: "--" :: rest => unwrapped true rest
    | wrapped, "command" :: name :: rest =>
      if name = "-v" || name = "-V" then (wrapped, "command" :: name :: rest)
      else unwrapped true (name :: rest)
    | wrapped, fields => (wrapped, fields)
  let (wrapped, fields) := unwrapped false fields
  let functions := (← get).functions
  match fields with
  | [] => done
  | "command" :: "-v" :: names => describeCommand true names
  | "command" :: "-V" :: names => describeCommand false names
  | name :: args =>
    let special := specialCommands.contains name && !wrapped
    match if wrapped then none else functions.lookup name with
    | some body => callFunction evaluate tested body args
    | none =>
      if name = "exec" then
        if args.isEmpty then done else runBuiltin special (replaceShell evaluate args)
      else
        match builtin? evaluate tested name with
        | some builtin => runBuiltin special (builtin args)
        | none => runProgram evaluate fields

def runSimple (evaluate : Evaluator) (tested : Bool) (line : Nat)
    (assignments : List (String × Word)) (words : List Word) (redirections : List Redirection) :
    Act Unit := do
  let capture := captureOutput evaluate
  modify fun s => { s with line, captureStatus := 0 }
  let fields ← expandCommand capture [] words
  let targets ← redirections.mapM (expandTarget capture)
  let before ← get
  let command := fields.dropWhile (· = "command")
  let special := fields.head?.any specialCommands.contains
  let keepsStreams := command.head? = some "exec"
  let r ← Act.attempt do
    if !(← connectTargets targets) then
      setStatus 2
      if special then throw .fault
    else
      if fields.isEmpty then
        let shown ← assignAll capture assignments
        setStatus (← get).captureStatus
        unless shown.isEmpty do trace before.descriptors shown
      else
        let shown ← assignAll capture assignments
        if !special then
          -- What is assigned before a command is exported to it.
          modify fun s => assignments.foldl (fun s (name, _) =>
            match s.binding? name with
            | some b => s.putBinding name { b with exported := true }
            | none => s) s
        trace before.descriptors (shown ++ fields)
        runFields evaluate tested fields
  unless keepsStreams && r.isOk do
    modify fun s => { s with descriptors := before.descriptors }
  unless special || fields.isEmpty do
    modify fun s => assignments.foldl (fun s (name, _) =>
      match before.binding? name with
      | some b => s.putBinding name b
      | none => s.eraseBinding name) s
  Act.settle r

/-! ## Commands of several parts -/

/-- Runs commands of which each reads what the one before printed. -/
def runPiped (evaluate : Evaluator) (tested : Bool) : Option ByteArray → List Command → Act Unit
  | _, [] => return
  | input, c :: rest => do
    let n := (← get).nextChannel
    let isLast := rest.isEmpty
    let status ← inSubshell evaluate
      (fun s =>
        let s := if isLast then s else s.openChannel 1 (.sink ByteArray.empty)
        match input with
        | some bytes => s.openChannel 0 (.source bytes)
        | none => s)
      (evaluate tested c)
    if isLast then setStatus status
    else
      match (← get).channels.lookup n with
      | some (.sink bytes) => runPiped evaluate tested (some bytes) rest
      | _ => runPiped evaluate tested (some ByteArray.empty) rest

/-- Runs the body of a loop, and says whether the loop goes on. -/
def runRound (body : Act Unit) : Act Bool := do
  match ← body.attempt with
  | .ok () => return true
  | .error (.resume 1) => return true
  | .error (.resume n) => throw (.resume (n - 1))
  | .error (.leave n) =>
    if 1 < n then throw (.leave (n - 1))
    return false
  | .error e => throw e

def inLoop (act : Act Unit) : Act Unit := do
  modify fun s => { s with loops := s.loops + 1 }
  let r ← act.attempt
  modify fun s => { s with loops := s.loops - 1 }
  Act.settle r

/-- Repeats a body while its test holds; gives the status of its last round. -/
def runLoop (evaluate : Evaluator) (tested untilSuccess : Bool) (test body : Command) :
    Nat → Nat → Act Unit
  | 0, status => setStatus status
  | n + 1, status => do
    let holds ← Act.attempt do
      evaluate true test
      return ((← get).status = 0) != untilSuccess
    match holds with
    | .ok false => setStatus status
    | .ok true =>
      if ← runRound (evaluate tested body) then
        runLoop evaluate tested untilSuccess test body n (← get).status
    | .error e =>
      if ← runRound (throw e) then runLoop evaluate tested untilSuccess test body n status

def runEach (evaluate : Evaluator) (tested : Bool) (name : String) (body : Command) :
    List String → Act Unit
  | [] => return
  | value :: rest => do
    assign name value
    if ← runRound (evaluate tested body) then runEach evaluate tested name body rest

def runArms (evaluate : Evaluator) (tested : Bool) (text : String) :
    List (List Word × Option Command) → Act Unit
  | [] => done
  | (patterns, body) :: rest => do
    let mut found := false
    for w in patterns do
      unless found do
        let letters ← expandLetters (captureOutput evaluate) w
        found := (Pattern.ofLetters letters).matches text.toList
    if found then
      match body with
      | some c => evaluate tested c
      | none => done
    else runArms evaluate tested text rest

/-- How often a loop may run. -/
def maxRounds : Nat := 1000000

/-- Runs a command whose parts are run by `evaluate`. -/
def runCommand (evaluate : Evaluator) (tested : Bool) (c : Command) : Act Unit := do
  let capture := captureOutput evaluate
  match c with
  | .simple line assignments words redirections =>
    runSimple evaluate tested line assignments words redirections
    checkStatus tested
  | .redirected body rs => redirected capture tested rs (evaluate tested body)
  | .subshell body =>
    setStatus (← inSubshell evaluate (fun s => s) (evaluate tested body))
    checkStatus tested
  | .pipeline cs =>
    runPiped evaluate tested none cs
    checkStatus tested
  | .negated body =>
    evaluate true body
    modify fun s => { s with status := if s.status = 0 then 1 else 0 }
  | .background body =>
    let job := (← get).nextProcess
    let clock := (← get).clock
    let status ← inSubshell evaluate (·.openChannel 0 (.device true)) (evaluate false body)
    modify fun s => { s with
      job := some job, jobs := (job, status) :: s.jobs, status := 0, clock }
  | .sequence cs => for c in cs do evaluate tested c
  | .both first second =>
    evaluate true first
    if (← get).status = 0 then evaluate tested second
  | .either first second =>
    evaluate true first
    if (← get).status ≠ 0 then evaluate tested second
  | .conditional test yes no =>
    evaluate true test
    if (← get).status = 0 then evaluate tested yes
    else
      match no with
      | some no => evaluate tested no
      | none => done
  | .loop untilSuccess test body =>
    inLoop (runLoop evaluate tested untilSuccess test body maxRounds 0)
  | .each name words body =>
    let values ← match words with
      | some ws => (List.flatten ·) <$> ws.mapM (expandFields capture)
      | none => pure (← get).arguments
    done
    inLoop (runEach evaluate tested name body values)
  | .select word arms =>
    let text ← expandText capture word
    runArms evaluate tested text arms
  | .define name body =>
    modify fun s => { s with functions := (name, body) :: s.functions.filter (·.1 ≠ name) }
    done

/-- Runs a command in which at most `depth` are inside one another, unless commands are only to be
read. -/
def evaluate : Nat → Evaluator
  | 0, _, _ => do
    setStatus 2
    throw .exit
  | depth + 1, tested, c => do
    unless (← get).hasOption 'n' do
      runCommand (evaluate depth) tested c
      runTraps (evaluate depth)

/-- How deep commands may be inside one another. -/
def maxDepth : Nat := 2000

/-! ## Command lines -/

def firstBindings : List (String × Binding) :=
  [("PATH", ⟨some standardPath, true, false⟩), ("HOME", ⟨some "/root", true, false⟩)]

/-- A shell with nothing to read; what it prints is kept. -/
def Session.start (disk : Disk) : Session where
  disk := disk
  channels := [(0, .device true), (1, .sink ByteArray.empty), (2, .device true)]
  nextChannel := 3
  descriptors := [(0, 0), (1, 1), (2, 2)]
  bindings := ownBindings disk ++ firstBindings
  functions := []
  documents := []
  nextDocument := 0
  aliases := []
  name := "sh"
  arguments := []
  options := []
  status := 0
  captureStatus := 0
  line := 0
  process := 100
  parent := 1
  nextProcess := 101
  job := none
  jobs := []
  traps := []
  signals := []
  locals := []
  loops := 0
  inFunction := false
  clock := 0
  deadline := none
  optionIndex := 1
  optionPlace := none
  plainEcho := false

/-- Runs a command line, and keeps what it prints. -/
def execute (disk : Disk) (line : String) : Disk × ScriptResult :=
  let shell := asShell (evaluate maxDepth) (runText (evaluate maxDepth) false (ofText line))
  let (r, s) := (ExceptT.run shell).run (Session.start disk)
  let disk := { s.disk with base := disk.base }
  match r with
  | .ok status =>
    match s.channels.lookup 1 with
    | some (.sink bytes) => (disk, .exited status bytes)
    | _ => (disk, .exited status ByteArray.empty)
  | .error _ => (disk, .killed)

end TableMigration.Shell
