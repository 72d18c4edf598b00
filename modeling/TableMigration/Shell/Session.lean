import TableMigration.FileSystem.Disk
import TableMigration.Shell.Arithmetic
import TableMigration.Shell.Reading

/-!
# Sessions of a shell

What a shell knows while it runs: its parameters, functions and options, and the streams through
which it reads and writes. Shells that it starts share the disk and the streams with it.

A shell works on bytes. Its texts hold each byte as the character with that code, so that all that
matters to a shell, which is ASCII, reads as usual.
-/

namespace TableMigration.Shell

/-! ## Texts of bytes -/

def ofRaw (bytes : RawText) : String :=
  String.ofList (bytes.map fun b => Char.ofNat b.toNat)

def toRaw (s : String) : RawText :=
  s.toList.map fun c => c.toNat.toUInt8

def ofBytes (bytes : ByteArray) : String :=
  ofRaw bytes.data.toList

def toBytes (s : String) : ByteArray :=
  ⟨(toRaw s).toArray⟩

/-- The bytes of a text as a text of bytes. -/
def ofText (s : String) : String :=
  ofRaw (Text.encode s)

def pathOf (text : String) : Path :=
  ⟨toRaw text⟩

/-! ## What a shell knows -/

inductive Channel
  /-- Keeps what is written. -/
  | sink (bytes : ByteArray)
  /-- Gives what has not been read. -/
  | source (bytes : ByteArray)
  /-- A file, read and written from a position on. -/
  | file (names : List RawText) (position : Nat) (reads writes appends : Bool)
  | device (takes : Bool)

structure Binding where
  value : Option String
  exported : Bool
  readOnly : Bool
  deriving DecidableEq, Repr

structure Session where
  disk : Disk
  channels : List (Nat × Channel)
  nextChannel : Nat
  /-- The channels behind the numbers of streams. -/
  descriptors : List (Nat × Nat)
  bindings : List (String × Binding)
  functions : List (String × Command)
  documents : List (Nat × Word)
  nextDocument : Nat
  aliases : List (String × String)
  /-- The name by which the script was called. -/
  name : String
  arguments : List String
  /-- The letters of the options that are set. -/
  options : List Char
  status : Nat
  /-- The status of the commands whose output was put in place last. -/
  captureStatus : Nat
  line : Nat
  /-- The number of the process, of the one that started it, and of the next one. -/
  process : Nat
  parent : Nat
  nextProcess : Nat
  /-- The number of the last process in the background. -/
  job : Option Nat
  /-- How processes in the background ended. -/
  jobs : List (Nat × Nat)
  /-- What is run on a signal, or at the end. -/
  traps : List (String × String)
  /-- Signals that have arrived. -/
  signals : List String
  /-- What the parameters of the running function were before. -/
  locals : List (String × Option Binding)
  /-- How many loops are running. -/
  loops : Nat
  /-- Whether a function is running. -/
  inFunction : Bool
  /-- Milliseconds since the start, and when time is up. -/
  clock : Nat
  deadline : Option Nat
  /-- The argument that the next option is looked for in, counted from one, and the place in the
  argument before it that is looked at first. -/
  optionIndex : Nat
  optionPlace : Option Nat
  /-- Whether `echo` leaves backslashes alone. -/
  plainEcho : Bool

/-- Why the commands that follow do not run. -/
inductive Interrupt
  /-- The loops left, this many. -/
  | leave (loops : Nat)
  /-- The loops left, of which the last one goes on. -/
  | resume (loops : Nat)
  | return
  | exit
  /-- An error that ends the shell, unless it arose in a command that may fail. -/
  | fault
  /-- The end of a process by a signal. -/
  | killed (process signal : Nat)
  | expired
  deriving DecidableEq, Repr

abbrev Act := ExceptT Interrupt (StateM Session)

namespace Act

variable {α : Type}

def attempt (a : Act α) : Act (Except Interrupt α) :=
  ExceptT.mk (do return .ok (← a.run))

def settle (r : Except Interrupt α) : Act α :=
  ExceptT.mk (pure r)

/-- Does something in a session that is put back afterwards but for what all sessions share. -/
def apart (a : Act α) : Act (Except Interrupt α × Session) := do
  let outer ← get
  let r ← attempt a
  let inner ← get
  set { outer with
    disk := { inner.disk with base := outer.disk.base }
    channels := inner.channels
    nextChannel := inner.nextChannel
    documents := inner.documents
    nextDocument := inner.nextDocument
    nextProcess := inner.nextProcess
    clock := inner.clock }
  return (r, inner)

end Act

def setStatus (status : Nat) : Act Unit :=
  modify fun s => { s with status }

/-! ## Streams -/

namespace Session

def channel? (s : Session) (stream : Nat) : Option (Nat × Channel) := do
  let n ← s.descriptors.lookup stream
  let c ← s.channels.lookup n
  return (n, c)

def putChannel (s : Session) (n : Nat) (c : Channel) : Session :=
  { s with channels := (n, c) :: s.channels.filter (·.1 ≠ n) }

def connect (s : Session) (stream channel : Nat) : Session :=
  { s with descriptors := (stream, channel) :: s.descriptors.filter (·.1 ≠ stream) }

def disconnect (s : Session) (stream : Nat) : Session :=
  { s with descriptors := s.descriptors.filter (·.1 ≠ stream) }

def openChannel (s : Session) (stream : Nat) (c : Channel) : Session :=
  ({ s with channels := (s.nextChannel, c) :: s.channels, nextChannel := s.nextChannel + 1 }).connect
    stream s.nextChannel

end Session

/-- Bytes put into others at a position, up to which there are zeros. -/
def overwrite (content : ByteArray) (position : Nat) (bytes : ByteArray) : ByteArray :=
  let before := content.extract 0 position
  let gap : ByteArray := ⟨Array.replicate (position - content.size) 0⟩
  before ++ gap ++ bytes ++ content.extract (position + bytes.size) content.size

def writeBytes (stream : Nat) (bytes : ByteArray) : Act Bool := do
  let s ← get
  match s.channel? stream with
  | none => return bytes.isEmpty
  | some (_, .source _) => return bytes.isEmpty
  | some (n, .sink old) =>
    set (s.putChannel n (.sink (old ++ bytes)))
    return true
  | some (_, .device takes) => return takes || bytes.isEmpty
  | some (n, .file names position reads writes appends) =>
    if !writes then return bytes.isEmpty
    match s.disk.find? names with
    | some (.file content executable) =>
      let start := if appends then content.size else position
      let disk := s.disk.put names (.file (overwrite content start bytes) executable)
      set ({ s with disk }.putChannel n (.file names (start + bytes.size) reads writes appends))
      return true
    | _ => return true

def write (stream : Nat) (text : String) : Act Bool :=
  writeBytes stream (toBytes text)

/-- What has not been read of a stream, unless it cannot be read. -/
def unread? (stream : Nat) : Act (Option ByteArray) := do
  let s ← get
  match s.channel? stream with
  | some (_, .source bytes) => return some bytes
  | some (_, .device _) => return some ByteArray.empty
  | some (_, .file names position true _ _) =>
    match s.disk.find? names with
    | some (.file content _) => return some (content.extract position content.size)
    | _ => return none
  | _ => return none

def consume (stream count : Nat) : Act Unit := do
  let s ← get
  match s.channel? stream with
  | some (n, .source bytes) => set (s.putChannel n (.source (bytes.extract count bytes.size)))
  | some (n, .file names position reads writes appends) =>
    set (s.putChannel n (.file names (position + count) reads writes appends))
  | _ => return

def readAll? (stream : Nat) : Act (Option String) := do
  match ← unread? stream with
  | none => return none
  | some bytes =>
    consume stream bytes.size
    return some (ofBytes bytes)

/-- The next line of a stream without its end, and whether it had one. -/
def readLine? (stream : Nat) : Act (Option (String × Bool)) := do
  match ← unread? stream with
  | none => return none
  | some bytes =>
    if bytes.isEmpty then return none
    let line := bytes.toList.takeWhile (· ≠ 10)
    let ends := line.length < bytes.size
    consume stream (line.length + if ends then 1 else 0)
    return some (ofBytes ⟨line.toArray⟩, ends)

/-! ## Errors -/

def complain (text : String) : Act Unit := do
  let s ← get
  discard (write 2 (s.name ++ ": " ++ toString s.line ++ ": " ++ text ++ "\n"))

def failWith {α : Type} (status : Nat) (text : String) : Act α := do
  complain text
  setStatus status
  throw .fault

def fail {α : Type} (text : String) : Act α :=
  failWith 2 text

/-! ## Parameters -/

namespace Session

def binding? (s : Session) (name : String) : Option Binding :=
  s.bindings.lookup name

def putBinding (s : Session) (name : String) (b : Binding) : Session :=
  { s with bindings := (name, b) :: s.bindings.filter (·.1 ≠ name) }

def eraseBinding (s : Session) (name : String) : Session :=
  { s with bindings := s.bindings.filter (·.1 ≠ name) }

def hasOption (s : Session) (letter : Char) : Bool :=
  s.options.contains letter

def setOption (s : Session) (letter : Char) (on : Bool) : Session :=
  let others := s.options.filter (· ≠ letter)
  { s with options := if on then letter :: others else others }

/-- The letters of options in the order in which they are shown. -/
def optionLetters : List Char :=
  ['e', 'f', 'I', 'i', 'm', 'n', 's', 'x', 'v', 'V', 'E', 'C', 'a', 'b', 'u']

def value? (s : Session) (name : String) : Option String :=
  match name with
  | "?" => some (toString s.status)
  | "$" => some (toString s.process)
  | "#" => some (toString s.arguments.length)
  | "!" => s.job.map toString
  | "-" => some (String.ofList (optionLetters.filter s.options.contains))
  | "0" => some s.name
  | "PPID" => some (toString s.parent)
  | _ =>
    if name.toList.all Char.isDigit then s.arguments[(digits 10 0 name.toList).1 - 1]?
    else (s.binding? name).bind (·.value)

def separators (s : Session) : List Char :=
  match s.value? "IFS" with
  | some ifs => ifs.toList
  | none => [' ', '\t', '\n']

def environment (s : Session) : List (String × String) :=
  (s.bindings.filterMap fun (name, b) =>
    if b.exported then b.value.map (name, ·) else none).mergeSort fun a b => decide (a.1 ≤ b.1)

end Session

/-- Assigns to a parameter. Options are looked for anew from the argument that `OPTIND` gives. -/
def assign (name value : String) : Act Unit := do
  if name = "OPTIND" then
    modify fun s => { s with
      optionIndex := max 1 (digits 10 0 value.toList).1
      optionPlace := none }
  let s ← get
  match s.binding? name with
  | some b =>
    if b.readOnly then fail (name ++ ": is read only")
    let exported := b.exported || s.hasOption 'a'
    set (s.putBinding name { b with value := some value, exported })
  | none => set (s.putBinding name ⟨some value, s.hasOption 'a', false⟩)

def standardPath : String :=
  "/usr/local/sbin:/usr/local/bin:/usr/sbin:/usr/bin:/sbin:/bin"

end TableMigration.Shell
