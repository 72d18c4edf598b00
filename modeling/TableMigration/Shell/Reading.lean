import TableMigration.Shell.Reader

/-!
# Reading the commands of a script

Commands are read one line after another, so that what stands on a line can run before a later line
turns out not to be well formed. A line goes on as long as something on it is open.
-/

namespace TableMigration.Shell

inductive Goal
  /-- The commands of one line. -/
  | line
  /-- Commands up to a word that closes them. -/
  | body
  /-- Like a body, but there may be none. -/
  | optional
  | command
  deriving DecidableEq, Repr

def keywords : List String :=
  ["!", "case", "do", "done", "elif", "else", "esac", "fi", "for", "if", "in", "then", "until",
   "while", "\x7b", "\x7d"]

def closingKeywords : List String :=
  ["do", "done", "elif", "else", "esac", "fi", "then", "\x7d"]

/-- Commands whose names no function may take. -/
def specialCommands : List String :=
  [".", ":", "break", "continue", "eval", "exec", "exit", "export", "local", "readonly", "return",
   "set", "shift", "times", "trap", "unset"]

def Token.text? : Token → Option String
  | .word w => (bareText? w).map String.ofList
  | _ => none

def Token.isKeyword (t : Token) (keyword : String) : Bool :=
  t.text? == some keyword

def Token.closes (t : Token) : Bool :=
  match t with
  | .finish | .closing | .doubleSemicolon => true
  | _ => t.text?.any closingKeywords.contains

def Word.letters (w : Word) : List Char :=
  w.filterMap fun g => match g with
    | .bare c | .literal c => some c
    | _ => none

section
variable (again : Goal → Reading (Option Command))

def nested : Nested where
  closed := do
    let outer ← get
    modify fun r => { r with pending := [] }
    let c ← again .optional
    let .closing ← nextToken ⟨failure, failure⟩ false | failure
    modify fun r => { r with pending := outer.pending ++ r.pending }
    return c
  whole := do
    let c ← again .optional
    let .finish ← nextToken ⟨failure, failure⟩ false | failure
    return c

def next : Reading Token :=
  nextToken (nested again) false

/-- The next token on whichever line it is. -/
def nextBelow : Reading Token := do
  go ((← get).rest.length + 1)
where
  go : Nat → Reading Token
    | 0 => failure
    | n + 1 => do
      match ← next again with
      | .newline => go n
      | t => return t

def skipLines : Reading Unit := do
  putBack (← nextBelow again)

/-- Puts the text of an alias where its name was; it is not used again within itself. -/
def useAlias (t : Token) : Reading Bool := do
  let r ← get
  match t.text? with
  | none => return false
  | some name =>
    match r.aliases.lookup name with
    | none => return false
    | some text =>
      let after := r.rest.length
      if r.inUse.any fun (used, length) => used = name && length ≤ after then return false
      set { r with rest := text.toList ++ r.rest, inUse := (name, after) :: r.inUse }
      return true

def nextOfCommand (keywordsCount : Bool) (lines : Bool) : Reading Token := do
  go 100
where
  go : Nat → Reading Token
    | 0 => failure
    | n + 1 => do
      let t ← if lines then nextBelow again else next again
      if keywordsCount && t.text?.any keywords.contains then return t
      if ← useAlias t then go n else return t

def expect (keyword : String) : Reading Unit := do
  unless (← nextBelow again).isKeyword keyword do failure

def readBody : Reading Command := do
  match ← again .body with
  | some c => return c
  | none => failure

/-! ## Redirections -/

def readTarget (stream : Nat) (sign : Sign) : Reading Redirection := do
  match sign with
  | .file kind =>
    let .word target ← next again | failure
    return .file stream kind target
  | .document dropsTabs =>
    let .word delimiter ← nextToken (nested again) true | failure
    let r ← get
    let d : PendingDocument := ⟨r.nextDocument, delimiter.letters, dropsTabs, !hasQuotes delimiter⟩
    set { r with pending := r.pending ++ [d], nextDocument := r.nextDocument + 1 }
    return .document stream d.number

def readRedirections : Reading (List Redirection) := do
  go ((← get).rest.length + 1)
where
  go : Nat → Reading (List Redirection)
    | 0 => failure
    | n + 1 => do
      match ← nextOfCommand again true false with
      | .redirect stream sign =>
        let r ← readTarget again stream sign
        return r :: (← go n)
      | t =>
        putBack t
        return []

/-! ## Simple commands -/

structure Draft where
  assignments : List (String × Word)
  words : List Word
  redirections : List Redirection

def readFunction (name : Word) : Reading Command := do
  let .closing ← next again | failure
  let some name := (bareText? name).map String.ofList | failure
  unless isName name && !specialCommands.contains name do failure
  skipLines again
  match ← again .command with
  | some body => return .define name body
  | none => failure

/-- Reads a simple command, whose assignments stand before its name. -/
def readSimple (line : Nat) : Reading Command := do
  go ((← get).rest.length + 2) ⟨[], [], []⟩
where
  go : Nat → Draft → Reading Command
    | 0, _ => failure
    | n + 1, d => do
      match ← if d.words.isEmpty then nextOfCommand again false false else next again with
      | .word w =>
        match if d.words.isEmpty then assignment? w else none with
        | some a => go n { d with assignments := d.assignments ++ [a] }
        | none => go n { d with words := d.words ++ [w] }
      | .redirect stream sign =>
        let r ← readTarget again stream sign
        go n { d with redirections := d.redirections ++ [r] }
      | t =>
        match t, d with
        | .opening, ⟨[], [name], []⟩ => readFunction again name
        | _, _ =>
          putBack t
          return .simple line d.assignments d.words d.redirections

/-! ## Commands of several parts -/

def readBranches : Nat → Reading Command
  | 0 => failure
  | n + 1 => do
    let test ← readBody again
    expect again "then"
    let yes ← readBody again
    let t ← next again
    if t.isKeyword "elif" then
      return .conditional test yes (some (← readBranches n))
    else if t.isKeyword "else" then
      let no ← readBody again
      expect again "fi"
      return .conditional test yes (some no)
    else if t.isKeyword "fi" then return .conditional test yes none
    else failure

def readLoop (untilSuccess : Bool) : Reading Command := do
  let test ← readBody again
  expect again "do"
  let body ← readBody again
  expect again "done"
  return .loop untilSuccess test body

def readWords : Nat → Reading (List Word)
  | 0 => failure
  | n + 1 => do
    match ← next again with
    | .word w => return w :: (← readWords n)
    | .newline | .semicolon => return []
    | _ => failure

def readEach : Reading Command := do
  let t ← next again
  let some name := t.text? | failure
  unless isName name do failure
  let t ← nextBelow again
  let words ←
    if t.isKeyword "in" then some <$> readWords again ((← get).rest.length + 1)
    else
      match t with
      | .semicolon => pure none
      | _ =>
        putBack t
        pure none
  expect again "do"
  let body ← readBody again
  expect again "done"
  return .each name words body

/-- The patterns of an arm, the first of which is given. -/
def readPatterns : Nat → Token → Reading (List Word)
  | 0, _ => failure
  | n + 1, t => do
    let .word w := t | failure
    match ← next again with
    | .pipe => return w :: (← readPatterns n (← next again))
    | .closing => return [w]
    | _ => failure

def readArms : Nat → Reading (List (List Word × Option Command))
  | 0 => failure
  | n + 1 => do
    let t ← nextBelow again
    if t.isKeyword "esac" then return []
    let first ← match t with
      | .opening => next again
      | t => pure t
    let patterns ← readPatterns again ((← get).rest.length + 1) first
    let body ← again .optional
    let t ← nextBelow again
    if t.isKeyword "esac" then return [(patterns, body)]
    let .doubleSemicolon := t | failure
    return (patterns, body) :: (← readArms n)

def readSelect : Reading Command := do
  let .word w ← next again | failure
  expect again "in"
  return .select w (← readArms again ((← get).rest.length + 1))

def readRedirected (c : Command) : Reading Command := do
  match ← readRedirections again with
  | [] => return c
  | rs => return .redirected c rs

def readCommand : Reading Command := do
  let line := (← get).line
  let t ← nextOfCommand again true false
  match t with
  | .opening =>
    let body ← readBody again
    let .closing ← next again | failure
    readRedirected again (.subshell body)
  | .redirect .. =>
    putBack t
    readSimple again line
  | .word _ =>
    match t.text? with
    | some "if" => readRedirected again (← readBranches again ((← get).rest.length + 1))
    | some "while" => readRedirected again (← readLoop again false)
    | some "until" => readRedirected again (← readLoop again true)
    | some "for" => readRedirected again (← readEach again)
    | some "case" => readRedirected again (← readSelect again)
    | some "\x7b" =>
      let body ← readBody again
      expect again "\x7d"
      readRedirected again body
    | text =>
      if text.any keywords.contains then failure
      putBack t
      readSimple again line
  | _ => failure

/-! ## Lists of commands -/

/-- The commands joined by a sign, the first of which is given. -/
def readPiped : Nat → Command → Reading (List Command)
  | 0, _ => failure
  | n + 1, c => do
    match ← next again with
    | .pipe =>
      skipLines again
      return c :: (← readPiped n (← readCommand again))
    | t =>
      putBack t
      return [c]

def readPipeline : Reading Command := do
  let t ← nextOfCommand again true false
  let negated := t.isKeyword "!"
  unless negated do putBack t
  let c ← readCommand again
  let c ← match ← readPiped again ((← get).rest.length + 2) c with
    | [c] => pure c
    | cs => pure (.pipeline cs)
  return if negated then .negated c else c

def readJoined : Nat → Command → Reading Command
  | 0, _ => failure
  | n + 1, c => do
    match ← next again with
    | .and =>
      skipLines again
      readJoined n (.both c (← readPipeline again))
    | .or =>
      skipLines again
      readJoined n (.either c (← readPipeline again))
    | t =>
      putBack t
      return c

def readList (goal : Goal) : Nat → List Command → Reading (List Command)
  | 0, _ => failure
  | n + 1, done => do
    let t ← if goal = .line then next again else nextBelow again
    match t with
    | .newline => return done
    | .finish =>
      putBack t
      return done
    | _ =>
      putBack t
      if goal ≠ .line && (goal = .optional || !done.isEmpty) && t.closes then return done
      let c ← readPipeline again
      let c ← readJoined again ((← get).rest.length + 2) c
      match ← next again with
      | .background => readList goal n (done ++ [.background c])
      | .semicolon => readList goal n (done ++ [c])
      | .newline =>
        putBack .newline
        readList goal n (done ++ [c])
      | t =>
        if goal = .line && t.text?.isSome then failure
        match goal, t with
        | .line, .finish | .body, _ | .optional, _ =>
          putBack t
          return done ++ [c]
        | _, _ => failure

def readGoal (goal : Goal) : Reading (Option Command) := do
  match goal with
  | .command => some <$> readCommand again
  | _ =>
    match ← readList again goal ((← get).rest.length + 2) [] with
    | [] => return none
    | [c] => return some c
    | cs => return some (.sequence cs)

end

/-- Reads what is asked for, at most this deep. -/
def read : Nat → Goal → Reading (Option Command)
  | 0, _ => failure
  | n + 1, goal => readGoal (read n) goal

def Reader.ofText (text : String) : Reader where
  rest := text.toList
  line := 1
  ahead := none
  pending := []
  documents := []
  nextDocument := 0
  aliases := []
  inUse := []

inductive LineResult
  | finished
  | broken
  | read (commands : Option Command) (after : Reader)

def Reader.next (r : Reader) : LineResult :=
  let fuel := r.rest.length + 2
  match (nextToken (nested (read fuel)) false).run r with
  | none => .broken
  | some (.finish, _) => .finished
  | some (t, r) =>
    match (do putBack t; read fuel .line).run r with
    | none => .broken
    | some (c, r) => .read c r

end TableMigration.Shell
