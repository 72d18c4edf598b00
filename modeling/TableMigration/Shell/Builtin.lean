import TableMigration.Shell.Expansion
import TableMigration.Shell.Process

/-!
# Commands of the shell itself

Commands that change the shell which runs them, or that need no process of their own. An error in
a special one ends the shell.
-/

namespace TableMigration.Shell

/-- A command of the shell; it sets the status. -/
abbrev Builtin := List String → Act Unit

def done : Act Unit := setStatus 0

def failAs {α : Type} (command text : String) : Act α :=
  fail (command ++ ": " ++ text)

def number? (text : String) : Option Nat :=
  if text ≠ "" && text.toList.all Char.isDigit then
    let n := (digits 10 0 text.toList).1
    if n < 0x80000000 then some n else none
  else none

def requireNumber (command text : String) : Act Nat :=
  match number? text with
  | some n => return n
  | none => failAs command ("Illegal number: " ++ text)

def leadingOptions (command letters : String) : List String → Act (List Char × List String)
  | [] => return ([], [])
  | arg :: args =>
    match arg.toList with
    | ['-', '-'] => return ([], args)
    | '-' :: c :: cs =>
      match (c :: cs).find? fun c => !letters.toList.contains c with
      | some c => failAs command ("Illegal option -" ++ c.toString)
      | none => do
        let (more, rest) ← leadingOptions command letters args
        return (c :: cs ++ more, rest)
    | _ => return ([], arg :: args)

def quoteText (text : String) : String :=
  "'" ++ "'\"'\"'".intercalate (text.splitOn "'") ++ "'"

/-! ## Flow -/

def breakLoop (command : String) (interrupt : Nat → Interrupt) : Builtin := fun args => do
  let n ← match args with
    | [] => pure 1
    | a :: _ => requireNumber command a
  if n = 0 then failAs command "Illegal number: 0"
  let loops := (← get).loops
  done
  if 0 < loops then throw (interrupt (min n loops))

def exitShell : Builtin := fun args => do
  if let a :: _ := args then setStatus (← requireNumber "exit" a)
  throw .exit

def returnFrom : Builtin := fun args => do
  if let a :: _ := args then setStatus (← requireNumber "return" a)
  throw .return

/-! ## Parameters -/

def shift : Builtin := fun args => do
  let n ← match args with
    | [] => pure 1
    | a :: _ => requireNumber "shift" a
  let s ← get
  if s.arguments.length < n then failAs "shift" "can't shift that many"
  set { s with
    arguments := s.arguments.drop n
    status := 0
    optionIndex := 1
    optionPlace := none }

def declare (command : String) (mark : Binding → Binding) (marked : Binding → Bool) :
    Builtin := fun args => do
  let (options, names) ← leadingOptions command "p" args
  if names.isEmpty || options.contains 'p' then
    let shown := (← get).bindings.filter fun b => marked b.2
    for (name, b) in shown.mergeSort fun a b => decide (a.1 ≤ b.1) do
      let value := match b.value with
        | some v => "=" ++ quoteText v
        | none => ""
      discard (say (command ++ " " ++ name ++ value ++ "\n"))
  else
    for arg in names do
      let name := String.ofList (arg.toList.takeWhile (· ≠ '='))
      unless isName name do failAs command (name ++ ": bad variable name")
      if name.length < arg.length then
        assign name (String.ofList (arg.toList.drop (name.length + 1)))
      modify fun s => s.putBinding name (mark ((s.binding? name).getD ⟨none, false, false⟩))
  done

def unset : Builtin := fun args => do
  let (options, names) ← leadingOptions "unset" "fv" args
  for name in names do
    if options.contains 'f' then
      modify fun s => { s with functions := s.functions.filter (·.1 ≠ name) }
    else
      unless isName name do failAs "unset" (name ++ ": bad variable name")
      let s ← get
      if (s.binding? name).any (·.readOnly) then failAs "unset" (name ++ ": is read only")
      set (s.eraseBinding name)
  done

def localParameters : Builtin := fun args => do
  unless (← get).inFunction do failAs "local" "not in a function"
  for arg in args do
    if arg ≠ "-" then
      let name := String.ofList (arg.toList.takeWhile (· ≠ '='))
      unless isName name do failAs "local" (name ++ ": bad variable name")
      modify fun s =>
        if s.locals.any (·.1 = name) then s
        else { s with locals := (name, s.binding? name) :: s.locals }
      if name.length < arg.length then
        assign name (String.ofList (arg.toList.drop (name.length + 1)))
  done

def showSettings : Act Unit := do
  let s ← get
  for (name, b) in s.bindings.mergeSort fun a b => decide (a.1 ≤ b.1) do
    if let some v := b.value then discard (say (name ++ "=" ++ quoteText v ++ "\n"))

def showOptions (asCommands : Bool) : Act Unit := do
  let s ← get
  unless asCommands do discard (say "Current option settings\n")
  for (name, c) in optionNames do
    let on := s.hasOption c
    let gap := String.ofList (List.replicate (16 - name.length) ' ')
    discard (say (if asCommands then "set " ++ (if on then "-o " else "+o ") ++ name ++ "\n"
      else name ++ gap ++ (if on then "on" else "off") ++ "\n"))

def setShell : Builtin := fun args => do
  match args with
  | [] => showSettings
  | ["-o"] => showOptions false
  | ["+o"] => showOptions true
  | _ =>
    match readOptions (← get).options false args with
    | .error option => failAs "set" ("Illegal option " ++ option)
    | .ok o =>
      if o.hasText then failAs "set" "Illegal option -c"
      modify fun s => { s with options := o.options }
      if o.ended || !o.rest.isEmpty then
        modify fun s => { s with arguments := o.rest, optionIndex := 1, optionPlace := none }
  done

/-! ## Reading -/

abbrev ReadChar := Char × Bool

/-- The characters of a line. A backslash before a character takes its meaning away, and before
the end of a line it joins the next one to it. -/
def readCharacters (raw : Bool) : Nat → Act (List ReadChar × Bool)
  | 0 => return ([], false)
  | n + 1 => do
    match ← readLine? 0 with
    | none => return ([], false)
    | some (line, ended) =>
      let (chars, joins) := go (line.length + 1) line.toList
      if joins && ended then
        let (more, ended) ← readCharacters raw n
        return (chars ++ more, ended)
      return (chars, ended)
where
  go : Nat → List Char → List ReadChar × Bool
    | 0, _ | _, [] => ([], false)
    | n + 1, c :: r =>
      if c = '\\' && !raw then
        match r with
        | [] => ([], true)
        | d :: r =>
          let (cs, joins) := go n r
          ((d, false) :: cs, joins)
      else
        let (cs, joins) := go n r
        ((c, true) :: cs, joins)

/-- Deals characters out to this many names, the last of which gets all that is left. -/
def dealFields (separators : List Char) : Nat → List ReadChar → List String
  | 0, _ => []
  | n + 1, cs =>
    let isBlank (c : ReadChar) : Bool := c.2 && isSpace c.1 && separators.contains c.1
    let separates (c : ReadChar) : Bool := c.2 && separators.contains c.1
    let text (cs : List ReadChar) : String := String.ofList (cs.map (·.1))
    let cs := cs.dropWhile isBlank
    let field := cs.takeWhile fun c => !separates c
    let rest := cs.drop field.length
    -- What separates two fields: blanks, and one separator that is no blank among them.
    let after := rest.dropWhile isBlank
    let after := match after with
      | c :: r => if separates c then r.dropWhile isBlank else after
      | [] => []
    if n = 0 then
      if after.isEmpty then [text field]
      else [text ((cs.reverse.dropWhile isBlank).reverse)]
    else text field :: dealFields separators n after

def readInput : Builtin := fun args => do
  let rec options : List String → Bool → List String × Bool
    | "-r" :: rest, _ => options rest true
    | "-p" :: _ :: rest, raw => options rest raw
    | "--" :: rest, raw => (rest, raw)
    | rest, raw => (rest, raw)
  let (names, raw) := options args false
  if names.isEmpty then failAs "read" "arg count"
  for name in names do
    unless isName name do failAs "read" (name ++ ": bad variable name")
  let (chars, ended) ← readCharacters raw 10000
  let fields := dealFields (← get).separators names.length (chars.filter (·.1 ≠ '\x00'))
  for (name, i) in names.zipIdx do
    assign name ((fields[i]?).getD "")
  setStatus (if ended then 0 else 1)

/-- Whether a letter is an option, and whether it takes a value: a colon stands after it then. -/
def optionKind? (c : Char) : List Char → Option Bool
  | [] => none
  | d :: ':' :: rest => if c = d then some true else optionKind? c rest
  | d :: rest => if c = d then some false else optionKind? c rest

def getOptions : Builtin := fun args => do
  match args with
  | letters :: name :: given =>
    let s ← get
    let words := if given.isEmpty then s.arguments else given
    let quiet := letters.toList.head? = some ':'
    let fresh := words.length + 1 < s.optionIndex
    let index := if fresh then 1 else s.optionIndex
    let place := if fresh then none else s.optionPlace
    -- What is left of the argument whose options are being read.
    let current := match place with
      | some k => if 1 < index then ((words[index - 2]?).getD "").toList.drop k else []
      | none => []
    let finish (found : String) (index : Nat) (place : Option Nat) (status : Nat) : Act Unit := do
      assign "OPTIND" (toString index)
      assign name found
      modify fun s => { s with optionIndex := index, optionPlace := place }
      setStatus status
    let readLetter (index : Nat) (c : Char) (rest : List Char) : Act Unit := do
      let place := ((words[index - 2]?).getD "").length - rest.length
      match optionKind? c letters.toList with
      | none =>
        if quiet then assign "OPTARG" c.toString
        else
          discard (write 2 ("Illegal option -" ++ c.toString ++ "\n"))
          modify fun s => s.eraseBinding "OPTARG"
        finish "?" index (some place) 0
      | some false =>
        assign "OPTARG" ""
        finish c.toString index (some place) 0
      | some true =>
        if !rest.isEmpty then
          assign "OPTARG" (String.ofList rest)
          finish c.toString index none 0
        else
          match words[index - 1]? with
          | some value =>
            assign "OPTARG" value
            finish c.toString (index + 1) none 0
          | none =>
            if quiet then
              assign "OPTARG" c.toString
              finish ":" index none 0
            else
              discard (write 2 ("No arg for -" ++ c.toString ++ " option\n"))
              modify fun s => s.eraseBinding "OPTARG"
              finish "?" index none 0
    match current with
    | c :: rest => readLetter index c rest
    | [] =>
      match ((words[index - 1]?).getD "").toList with
      | ['-', '-'] => finish "?" (index + 1) none 1
      | '-' :: c :: rest => readLetter (index + 1) c rest
      | _ => finish "?" index none 1
  | _ => failAs "getopts" "Usage: getopts optstring var [arg]"

/-! ## Places -/

def changeDirectory : Builtin := fun args => do
  let args := args.filter fun a => a ≠ "-P" && a ≠ "-L" && a ≠ "--"
  let s ← get
  let target := match args with
    | [] => (s.value? "HOME").getD ""
    | "-" :: _ => (s.value? "OLDPWD").getD ""
    | a :: _ => a
  let searched := match s.value? "CDPATH" with
    | some path =>
      if target.startsWith "/" || target.startsWith "." then []
      else (path.splitOn ":").map fun d => if d = "" then target else d ++ "/" ++ target
    | none => []
  let candidates := searched ++ [target]
  let isThere (path : String) : Bool := path = "" || s.disk.isDirectory (pathOf path)
  match candidates.find? isThere with
  | none => failAs "cd" ("can't cd to " ++ target)
  | some path =>
    let before := Files.absolute s.disk.base
    let names := match s.disk.locate (pathOf path) with
      | .found names => names
      | _ => s.disk.base
    set { s with disk := { s.disk with base := names } }
    assign "OLDPWD" before
    assign "PWD" (Files.absolute names)
    if args.head? = some "-" || path ≠ target then
      discard (say (Files.absolute names ++ "\n"))
    done

/-! ## Signals -/

def signalNames : List (String × Nat) :=
  [("EXIT", 0), ("HUP", 1), ("INT", 2), ("QUIT", 3), ("ILL", 4), ("TRAP", 5), ("ABRT", 6),
   ("BUS", 7), ("FPE", 8), ("KILL", 9), ("USR1", 10), ("SEGV", 11), ("USR2", 12), ("PIPE", 13),
   ("ALRM", 14), ("TERM", 15), ("STKFLT", 16), ("CHLD", 17), ("CONT", 18), ("STOP", 19),
   ("TSTP", 20), ("TTIN", 21), ("TTOU", 22), ("URG", 23), ("XCPU", 24), ("XFSZ", 25),
   ("VTALRM", 26), ("PROF", 27), ("WINCH", 28), ("IO", 29), ("PWR", 30), ("SYS", 31)]

def signal? (text : String) : Option (String × Nat) :=
  match number? text with
  | some n => signalNames.find? (·.2 = n)
  | none =>
    let name := text.map Char.toUpper
    signalNames.find? (·.1 = name)

def isHarmless (signal : String) : Bool :=
  ["CHLD", "CONT", "URG", "WINCH", "EXIT"].contains signal

def sendSignal (signal : String) (number process : Nat) : Act Bool := do
  let s ← get
  if process = s.process then
    match s.traps.lookup signal with
    | some "" => if signal = "KILL" then throw (.killed process number) else return true
    | some _ =>
      if signal = "KILL" then throw (.killed process number)
      set { s with signals := s.signals ++ [signal] }
      return true
    | none =>
      unless isHarmless signal do throw (.killed process number)
      return true
  else if process = s.parent && 0 < process then
    unless isHarmless signal do throw (.killed process number)
    return true
  else return s.jobs.any (·.1 = process)

def kill : Builtin := fun args => do
  let usage : Act Unit :=
    failAs "kill" ("Usage: kill [-s sigspec | -signum | -sigspec] [pid | job]... or\n" ++
      "kill -l [exitstatus]")
  let send (signal : String) (n : Nat) (targets : List String) : Act Unit := do
    let self := (← get).process
    let mut status := 0
    for target in targets do
      match number? target with
      | none =>
        unless target.startsWith "%" do failAs "kill" ("Illegal number: " ++ target)
        status := 1
      | some p =>
        unless ← sendSignal signal n (if p = 0 then self else p) do
          complain "kill: No such process"
          status := 1
    setStatus status
  let named (name : String) (targets : List String) : Act Unit :=
    match signal? name with
    | some (signal, n) => if targets.isEmpty then usage else send signal n targets
    | none => failAs "kill" ("Illegal option -" ++ (name.take 1).toString)
  match args with
  | [] => usage
  | ["-l"] =>
    discard (say (joinLinesOf (signalNames.map (·.1))))
    done
  | ["-l", n] =>
    let n := ((number? n).getD 0) % 128
    discard (say (((signalNames.find? (·.2 = n)).map (·.1)).getD "" ++ "\n"))
    done
  | "-s" :: name :: targets => named name targets
  | "--" :: targets => send "TERM" 15 targets
  | first :: targets =>
    match first.toList with
    | '-' :: name => named (String.ofList name) targets
    | _ => send "TERM" 15 args

def trap : Builtin := fun args => do
  let args := match args with
    | "--" :: rest => rest
    | args => args
  match args with
  | [] =>
    let traps := (← get).traps
    for (name, _) in signalNames do
      if let some text := traps.lookup name then
        discard (say ("trap -- " ++ quoteText text ++ " " ++ name ++ "\n"))
    done
  | first :: rest =>
    let (text, names) := match rest with
      | [] => (none, [first])
      | names => (if first = "-" then none else some first, names)
    let resets := (number? first).isSome
    let (text, names) := if resets then (none, args) else (text, names)
    for name in names do
      match signal? name with
      | none =>
        discard (write 2 ("trap: " ++ name ++ ": bad trap\n"))
        return ← setStatus 1
      | some (signal, _) =>
        modify fun s =>
          let others := s.traps.filter (·.1 ≠ signal)
          { s with traps := match text with
            | some text => (signal, text) :: others
            | none => others }
    done

def waitForJobs : Builtin := fun args => do
  let jobs := (← get).jobs
  done
  for arg in args do
    if arg.startsWith "%" then failAs "wait" ("No such job: " ++ arg)
    let process ← requireNumber "wait" arg
    setStatus ((jobs.lookup process).getD 127)

/-! ## Names of commands -/

def showAlias (a : String × String) : String :=
  a.1 ++ "=" ++ quoteText a.2 ++ "\n"

def makeAlias : Builtin := fun args => do
  let mut status := 0
  if args.isEmpty then
    for a in (← get).aliases do discard (say (showAlias a))
  for arg in args do
    let name := String.ofList (arg.toList.takeWhile (· ≠ '='))
    let s ← get
    if name.length < arg.length then
      let text := String.ofList (arg.toList.drop (name.length + 1))
      let others := s.aliases.filter fun a => a.1 ≠ name
      set { s with aliases := others ++ [(name, text)] }
    else
      match s.aliases.lookup name with
      | some text => discard (say (showAlias (name, text)))
      | none =>
        discard (write 2 ("alias: " ++ name ++ " not found\n"))
        status := 1
  setStatus status

def removeAlias : Builtin := fun args => do
  let s ← get
  let kept (a : String × String) : Bool := !args.contains "-a" && !args.contains a.1
  set { s with aliases := s.aliases.filter kept }
  done

def regularCommands : List String :=
  ["[", "alias", "bg", "cd", "command", "echo", "false", "fg", "getopts", "hash", "jobs", "kill",
   "printf", "pwd", "read", "test", "true", "type", "ulimit", "umask", "unalias", "wait"]

def describe (brief : Bool) (name : String) : Act Unit := do
  let s ← get
  let tell (short long : String) : Act Unit :=
    discard (say ((if brief then short else name ++ " is " ++ long) ++ "\n"))
  if keywords.contains name then tell name "a shell keyword"
  else
    match s.aliases.lookup name with
    | some text =>
      tell ("alias " ++ name ++ "=" ++ quoteText text) ("an alias for " ++ text)
    | none =>
      if s.functions.any (·.1 = name) then tell name "a shell function"
      else if specialCommands.contains name then tell name "a special shell builtin"
      else if regularCommands.contains name then tell name "a shell builtin"
      else
        match findProgram s name with
        | (.utility _, path) | (.script _ _, path) => tell path path
        | _ =>
          unless brief do discard (say (name ++ ": not found\n"))
          setStatus 127

def describeAll : Builtin := fun args => do
  done
  for name in args do describe false name

def describeCommand (brief : Bool) : Builtin := fun args => do
  done
  if let name :: _ := args then describe brief name

/-! ## All commands -/

def inProcess (utility : Utility) : Builtin := fun args => do
  setStatus (← utility args)

/-- The file that `.` reads. -/
def sourced? (s : Session) (name : String) : Option String :=
  let read (path : String) : Option String := match s.disk.lookup? (pathOf path) with
    | some (.file content _) => some (ofBytes content)
    | some (.device _) => some ""
    | _ => none
  if name.toList.contains '/' then
    match s.disk.lookup? (pathOf name) with
    | some .directory => some ""
    | _ => read name
  else ((searchPath s).filterMap fun d => read (d ++ "/" ++ name)).head?

def runSourced (evaluate : Evaluator) : Builtin := fun args => do
  match args with
  | [] => done
  | name :: _ =>
    match sourced? (← get) name with
    | none =>
      failAs "." (if name.toList.contains '/' then "cannot open " ++ name ++ ": No such file"
        else name ++ ": not found")
    | some text =>
      let line := (← get).line
      match ← (runText evaluate false text).attempt with
      | .error .return => modify fun s => { s with line }
      | r =>
        modify fun s => { s with line }
        Act.settle r

/-- Commands of the shell by their names; the flag says whether the status is tested. -/
def builtin? (evaluate : Evaluator) (tested : Bool) (name : String) : Option Builtin :=
  match name with
  | ":" | "true" => some fun _ => done
  | "false" => some fun _ => setStatus 1
  | "." => some (runSourced evaluate)
  | "break" => some (breakLoop "break" .leave)
  | "continue" => some (breakLoop "continue" .resume)
  | "eval" => some fun args => runText evaluate tested (" ".intercalate args)
  | "exit" => some exitShell
  | "export" =>
    some (declare "export" (fun b => { b with exported := true }) fun b => b.exported)
  | "readonly" =>
    some (declare "readonly" (fun b => { b with readOnly := true }) fun b => b.readOnly)
  | "return" => some returnFrom
  | "set" => some setShell
  | "shift" => some shift
  | "times" => some fun _ => do
    discard (say "0m0.000000s 0m0.000000s\n0m0.000000s 0m0.000000s\n")
    done
  | "trap" => some trap
  | "unset" => some unset
  | "[" | "test" => some (inProcess (testStatus name))
  | "alias" => some makeAlias
  | "bg" | "fg" | "hash" | "jobs" => some fun _ => done
  | "cd" => some changeDirectory
  | "command" => some fun _ => done
  | "echo" => some fun args => do
    let text := if (← get).plainEcho then plainEcho args else echo args
    setStatus (if ← say text then 0 else 1)
  | "getopts" => some getOptions
  | "kill" => some kill
  | "local" => some localParameters
  | "printf" => some (inProcess runPrintf)
  | "pwd" => some (inProcess Files.pwd)
  | "read" => some readInput
  | "type" => some describeAll
  | "ulimit" => some fun _ => do
    discard (say "unlimited\n")
    done
  | "umask" => some fun args => do
    match args with
    | [] => discard (say "0022\n")
    | mode :: _ =>
      if mode.toList.head?.any Char.isDigit && !mode.toList.all fun c => '0' ≤ c && c ≤ '7' then
        failAs "umask" ("Illegal number: " ++ mode)
      if mode.toList.any fun c => !(c.isDigit || "ugoarwxXst+-=,S".toList.contains c) then
        failAs "umask" ("Illegal mode: " ++ mode)
    done
  | "unalias" => some removeAlias
  | "wait" => some waitForJobs
  | _ => none

end TableMigration.Shell
