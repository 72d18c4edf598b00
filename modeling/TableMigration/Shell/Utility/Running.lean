import TableMigration.Shell.Utility.Hosts

/-!
# Programs that run others

With other parameters, for a limited time, or once for every part of the input.
-/

namespace TableMigration.Shell

def processStatus (process : Nat) (r : Except Interrupt Nat) : Act Nat :=
  match r with
  | .ok status => return status
  | .error (.killed p signal) =>
    if p = process then return 128 + signal else throw (.killed p signal)
  | .error .expired => throw .expired
  | .error _ => return 2

section
variable (launch : List String → Act Nat)

def readEnvironment : List String → List (String × Option String) × Bool × List String
  | "-i" :: rest | "-" :: rest | "--ignore-environment" :: rest =>
    let (changes, _, args) := readEnvironment rest
    (changes, true, args)
  | "-u" :: name :: rest =>
    let (changes, fresh, args) := readEnvironment rest
    ((name, none) :: changes, fresh, args)
  | "--" :: rest => readEnvironment rest
  | arg :: rest =>
    let name := String.ofList (arg.toList.takeWhile (· ≠ '='))
    if name.length < arg.length && name ≠ "" then
      let (changes, fresh, args) := readEnvironment rest
      ((name, some (String.ofList (arg.toList.drop (name.length + 1)))) :: changes, fresh, args)
    else ([], false, arg :: rest)
  | [] => ([], false, [])

def runEnv : Utility := fun args => do
  let (changes, fresh, command) := readEnvironment args
  let (r, inner) ← Act.apart do
    modify fun s =>
      let s := if fresh then { s with bindings := [] } else s
      changes.foldl (fun s (name, value) =>
        match value with
        | some v => s.putBinding name ⟨some v, true, false⟩
        | none => s.eraseBinding name) s
    if command.isEmpty then Hosts.printenv [] else launch command
  processStatus inner.process r

def runNice : Utility := fun args =>
  match args with
  | "-n" :: _ :: rest => launch rest
  | arg :: rest =>
    if arg.toList.head? = some '-' && 1 < arg.length then launch rest else launch args
  | [] => sayAll "nice" "0\n"

def runTimeout : Utility := fun args => do
  let kills := args.head? = some "-s" && (args[1]?).any ["KILL", "SIGKILL", "9"].contains
  let rec go : List String → Act Nat
    | "-s" :: _ :: rest | "-k" :: _ :: rest => go rest
    | duration :: command =>
      if duration.startsWith "-" then go command
      else
        match Hosts.readTime? duration with
        | none => refuse 125 "timeout" ("invalid time interval '" ++ duration ++ "'")
        | some millis => do
          if command.isEmpty then return 125
          let s ← get
          let mine := s.clock + millis
          let sooner := millis = 0 || s.deadline.any (· ≤ mine)
          let (r, inner) ← Act.apart do
            unless sooner do modify fun s => { s with deadline := some mine }
            launch command
          match r with
          | .error .expired =>
            if sooner then throw .expired else return if kills then 137 else 124
          | r => processStatus inner.process r
    | [] => return 125
  go args

/-- Words separated by blanks, in which quotes and backslashes have their meaning. -/
def argumentWords : Nat → Option (List Char) → List Char → List (List Char)
  | 0, w, _ | _, w, [] => (w.map List.reverse).toList
  | n + 1, w, c :: r =>
    if isSpace c then (w.map List.reverse).toList ++ argumentWords n none r
    else if c = '\'' || c = '"' then
      let inner := r.takeWhile (· ≠ c)
      argumentWords n (some (inner.reverse ++ w.getD [])) (r.drop (inner.length + 1))
    else if c = '\\' then
      match r with
      | d :: r => argumentWords n (some (d :: w.getD [])) r
      | [] => (w.map List.reverse).toList
    else argumentWords n (some (c :: w.getD [])) r

structure Gathering where
  most : Option Nat
  lines : Option Nat
  mark : Option String
  nulls : Bool
  separator : Option Char
  skipsNone : Bool
  command : List String

def readGathering (g : Gathering) : List String → Gathering
  | "-n" :: n :: rest => readGathering { g with most := readSize? n } rest
  | "-L" :: n :: rest => readGathering { g with lines := readSize? n } rest
  | "-I" :: mark :: rest => readGathering { g with mark := some mark } rest
  | "-P" :: _ :: rest => readGathering g rest
  | "-d" :: d :: rest =>
    readGathering { g with separator := if d = "\\n" then some '\n' else d.toList.head? } rest
  | "-0" :: rest => readGathering { g with nulls := true } rest
  | "-r" :: rest | "--no-run-if-empty" :: rest => readGathering { g with skipsNone := true } rest
  | "-t" :: rest => readGathering g rest
  | arg :: rest =>
    match arg.toList with
    | '-' :: 'n' :: n => readGathering { g with most := readSize? (String.ofList n) } rest
    | '-' :: 'I' :: mark => readGathering { g with mark := some (String.ofList mark) } rest
    | '-' :: 'd' :: [d] => readGathering { g with separator := some d } rest
    | '-' :: 'P' :: _ => readGathering g rest
    | _ => { g with command := arg :: rest }
  | [] => g

def batches {α : Type} (most : Nat) : Nat → List α → List (List α)
  | 0, _ | _, [] => []
  | n + 1, as => as.take (max most 1) :: batches most n (as.drop (max most 1))

def runXargs : Utility := fun args => do
  let g := readGathering ⟨none, none, none, false, none, false, []⟩ args
  let text := (← readAll? 0).getD ""
  let divided (c : Char) : List String :=
    let parts := (text.toList.splitOn c).map String.ofList
    if parts.getLast? = some "" then parts.dropLast else parts
  let items : List String := match g.separator, g.nulls, g.mark, g.lines with
    | some c, _, _, _ => divided c
    | none, true, _, _ => divided '\x00'
    | none, false, none, none =>
      (argumentWords (text.length + 1) none text.toList).map String.ofList
    | none, false, _, _ =>
      let trimmed := (splitLines text).1.map fun l => String.ofList (l.toList.dropWhile isSpace)
      trimmed.filter (· ≠ "")
  let command := if g.command.isEmpty then ["echo"] else g.command
  let calls : List (List String) := match g.mark with
    | some mark =>
      items.map fun item => command.map fun word => item.intercalate (word.splitOn mark)
    | none =>
      let groups := match g.most, g.lines with
        | some n, _ => batches n (items.length + 1) items
        | none, some n => (batches n (items.length + 1) items).map fun group =>
          group.flatMap fun line =>
            (argumentWords (line.length + 1) none line.toList).map String.ofList
        | none, none => if items.isEmpty then [] else [items]
      let groups := if groups.isEmpty && !g.skipsNone then [[]] else groups
      groups.map (command ++ ·)
  let mut status := 0
  for call in calls do
    match ← launch call with
    | 0 => pure ()
    | 126 => return 126
    | 127 => return 127
    | 255 => return 124
    | n => if n < 126 then status := 123 else return 125
  return status

end

end TableMigration.Shell
