import TableMigration.Shell.Utility.Basic

/-!
# Programs that tell about their surroundings

The environment, the user, the machine and the time.
-/

namespace TableMigration.Shell.Hosts

def succeed : Utility := fun _ => return 0

def failing : Utility := fun _ => return 1

def printenv : Utility := fun args => do
  let environment := (← get).environment
  match args with
  | [] =>
    sayAll "printenv" (joinLinesOf (environment.map fun (n, v) => n ++ "=" ++ v))
  | names =>
    let values := names.map fun name => environment.lookup name
    discard (say (joinLinesOf (values.filterMap fun v => v)))
    return if values.all Option.isSome then 0 else 1

def id : Utility := fun args =>
  withOptions 1 "id" ⟨"ugnrG", "", [("user", 'u'), ("group", 'g'), ("name", 'n')]⟩ args fun p => do
  if p.has 'u' || p.has 'g' || p.has 'G' then
    sayAll "id" (if p.has 'n' then "root\n" else "0\n")
  else sayAll "id" "uid=0(root) gid=0(root) groups=0(root)\n"

def uname : Utility := fun args =>
  withOptions 1 "uname" ⟨"asnrvmpio", "", []⟩ args fun p => do
  let parts := [('s', "Linux"), ('m', "x86_64"), ('o', "GNU/Linux")]
  let shown := if p.options.isEmpty then ["Linux"]
    else (parts.filter fun (c, _) => p.has c || p.has 'a').map (·.2)
  sayAll "uname" (" ".intercalate shown ++ "\n")

def fixed (program text : String) : Utility := fun _ =>
  sayAll program (text ++ "\n")

def startTime : Nat := 1700000000

def showDate (seconds : Nat) : List Char → String
  | '%' :: c :: r =>
    let day := seconds / 86400
    let (year, month, dayOfMonth) := civil day
    let two (n : Nat) : String := if n < 10 then "0" ++ toString n else toString n
    let clock := two (seconds / 3600 % 24) ++ ":" ++ two (seconds / 60 % 60) ++ ":" ++
      two (seconds % 60)
    let date := toString year ++ "-" ++ two month ++ "-" ++ two dayOfMonth
    (match c with
      | 's' => toString seconds
      | 'Y' => toString year
      | 'm' => two month
      | 'd' => two dayOfMonth
      | 'H' => two (seconds / 3600 % 24)
      | 'M' => two (seconds / 60 % 60)
      | 'S' => two (seconds % 60)
      | 'F' => date
      | 'T' => clock
      | 'N' => "000000000"
      | 'Z' => "UTC"
      | 'z' => "+0000"
      | 'n' => "\n"
      | 't' => "\t"
      | '%' => "%"
      | c => "%" ++ c.toString) ++ showDate seconds r
  | c :: r => c.toString ++ showDate seconds r
  | [] => ""
where
  /-- Year, month and day of a day counted from the epoch. -/
  civil (day : Nat) : Nat × Nat × Nat :=
    let z := day + 719468
    let era := z / 146097
    let doe := z % 146097
    let yoe := (doe - doe / 1460 + doe / 36524 - doe / 146096) / 365
    let doy := doe - (365 * yoe + yoe / 4 - yoe / 100)
    let mp := (5 * doy + 2) / 153
    let month := if mp < 10 then mp + 3 else mp - 9
    (yoe + era * 400 + if month ≤ 2 then 1 else 0, month, doy - (153 * mp + 2) / 5 + 1)

def date : Utility := fun args => do
  let seconds := startTime + (← get).clock / 1000
  let format := (args.find? fun a => a.startsWith "+").getD "+%F %T %Z"
  sayAll "date" (showDate seconds (format.toList.drop 1) ++ "\n")

def readTime? (text : String) : Option Nat :=
  let cs := text.toList
  let whole := cs.takeWhile Char.isDigit
  let (part, rest) := match cs.drop whole.length with
    | '.' :: r => (r.takeWhile Char.isDigit, r.dropWhile Char.isDigit)
    | r => ([], r)
  if (whole ++ part).isEmpty then none
  else
    let millis := (digits 10 0 whole).1 * 1000 + (digits 10 0 ((part ++ ['0', '0', '0']).take 3)).1
    match rest with
    | [] | ['s'] => some millis
    | ['m'] => some (millis * 60)
    | ['h'] => some (millis * 3600)
    | ['d'] => some (millis * 86400)
    | _ => if text = "inf" then some (1000 * 86400 * 365) else none

def wait (millis : Nat) : Act Unit := do
  let s ← get
  match s.deadline with
  | some deadline =>
    if deadline ≤ s.clock + millis then
      set { s with clock := deadline }
      throw .expired
    set { s with clock := s.clock + millis }
  | none => set { s with clock := s.clock + millis }

def sleep : Utility := fun args => do
  match args.mapM readTime? with
  | none => refuse 1 "sleep" "invalid time interval"
  | some [] => refuse 1 "sleep" "missing operand"
  | some times =>
    wait (times.foldl (· + ·) 0)
    return 0

end TableMigration.Shell.Hosts
