import TableMigration.Shell.Utility.Basic
import TableMigration.Shell.Utility.Regex

/-!
# Editing lines by a script

A script is run once for every line: each of its commands says to which lines it applies and what
becomes of them.
-/

namespace TableMigration.Shell.LineEditor

inductive Address
  | line (n : Nat)
  | last
  /-- Lines that match; no expression is the one used last. -/
  | matching (r : Option Regex)
  | step (first step : Nat)

/-- The lines from one that an address picks. -/
inductive RangeEnd
  | address (a : Address)
  | count (n : Nat)
  | multiple (n : Nat)

/-- How the case of what follows changes. -/
inductive CaseChange
  | upper
  | lower
  | upperNext
  | lowerNext
  | none
  deriving DecidableEq, Repr

inductive Piece
  | text (cs : List Char)
  | group (n : Nat)
  | caseChange (c : CaseChange)
  deriving DecidableEq, Repr

inductive Action
  | substitute (r : Option Regex) (pieces : List Piece) (nth : Nat) (all prints : Bool)
      (target : Option String)
  | replaceChars (pairs : List (Char × Char))
  | print
  | printFirst
  | delete
  | deleteFirst
  | number
  | append (text : String)
  | insert (text : String)
  | change (text : String)
  | next
  | appendNext
  | hold
  | holdAppend
  | get
  | getAppend
  | exchange
  | quit (status : Nat) (prints : Bool)
  | read (path : String)
  | write (path : String)
  | label (name : String)
  | jump (name : String)
  | jumpIfChanged (name : String) (changed : Bool)
  /-- Goes on after its partner unless its address applies. -/
  | opening
  | closing
  | nothing

structure Step where
  first : Option Address
  upTo : Option RangeEnd
  negated : Bool
  action : Action

/-! ## Reading -/

/-- The text up to a delimiter, in which the delimiter may stand after a backslash. -/
def delimited (d : Char) (isRegex : Bool) :
    Nat → Bool → List Char → Option (List Char × List Char)
  | 0, _, _ | _, _, [] => none
  | n + 1, inBrackets, '\\' :: c :: r =>
    (delimited d isRegex n inBrackets r).map fun (cs, rest) =>
      if c = d && !inBrackets then (c :: cs, rest)
      else if c = '\n' then ('\\' :: '\n' :: cs, rest)
      else ('\\' :: c :: cs, rest)
  | n + 1, inBrackets, c :: r =>
    if c = d && !inBrackets then some ([], r)
    else
      (delimited d isRegex n (if isRegex then
          if inBrackets then c ≠ ']' else c = '[' && r.contains ']' else false) r).map
        fun (cs, rest) => (c :: cs, rest)

def readRegex (style : Regex.Style) (cs : List Char) : Option (Option Regex) :=
  if cs.isEmpty then some none else (Regex.parse? style cs).map some

def readMatching (style : Regex.Style) (d : Char) (cs : List Char) :
    Option (Option Regex × List Char) :=
  match delimited d true (cs.length + 1) false cs with
  | some (text, rest) =>
    let flags := rest.takeWhile fun c => c = 'I' || c = 'M'
    let style := { style with ignoresCase := flags.contains 'I' }
    (readRegex style text).map fun r => (r, rest.drop flags.length)
  | none => none

def readAddress? (style : Regex.Style) (cs : List Char) : Option (Option Address × List Char) :=
  match cs with
  | '$' :: r => some (some .last, r)
  | '/' :: r => (readMatching style '/' r).map fun (x, rest) => (some (.matching x), rest)
  | '\\' :: d :: r => (readMatching style d r).map fun (x, rest) => (some (.matching x), rest)
  | c :: r =>
    if c.isDigit then
      let (n, rest) := digits 10 0 (c :: r)
      match rest with
      | '~' :: r =>
        let (m, rest) := digits 10 0 r
        some (some (.step n m), rest)
      | _ => some (some (.line n), rest)
    else some (none, c :: r)
  | [] => some (none, [])

def dropBlanks (cs : List Char) : List Char :=
  cs.dropWhile isSpace

def readRangeEnd? (style : Regex.Style) (cs : List Char) : Option (RangeEnd × List Char) :=
  match cs with
  | '+' :: r =>
    let (n, rest) := digits 10 0 r
    some (.count n, rest)
  | '~' :: r =>
    let (n, rest) := digits 10 0 r
    some (.multiple n, rest)
  | _ =>
    match readAddress? style cs with
    | some (some a, rest) => some (.address a, rest)
    | _ => none

def readPieces : Nat → List Char → List Piece
  | 0, _ | _, [] => []
  | n + 1, '\\' :: c :: r =>
    let piece : Piece := match c with
      | 'n' => .text ['\n']
      | 't' => .text ['\t']
      | 'U' => .caseChange .upper
      | 'L' => .caseChange .lower
      | 'u' => .caseChange .upperNext
      | 'l' => .caseChange .lowerNext
      | 'E' => .caseChange .none
      | c => if c.isDigit then .group (c.toNat - '0'.toNat) else .text [c]
    piece :: readPieces n r
  | n + 1, '&' :: r => .group 0 :: readPieces n r
  | n + 1, c :: r => .text [c] :: readPieces n r

/-- The text of a command that adds lines: up to the end of its line, which may be escaped. -/
def addedText : Nat → List Char → List Char × List Char
  | 0, cs => ([], cs)
  | _, [] => ([], [])
  | n + 1, '\\' :: c :: r =>
    let (cs, rest) := addedText n r
    (c :: cs, rest)
  | n + 1, c :: r =>
    if c = '\n' then ([], r)
    else
      let (cs, rest) := addedText n r
      (c :: cs, rest)

def readAdded (cs : List Char) : String × List Char :=
  let cs := cs.dropWhile fun c => c = ' ' || c = '\t'
  let cs := match cs with
    | '\\' :: r =>
      match r.dropWhile fun c => c = ' ' || c = '\t' with
      | '\n' :: r => r
      | r => r
    | cs => cs
  let (text, rest) := addedText (cs.length + 1) cs
  (String.ofList text ++ "\n", rest)

structure Flags where
  nth : Nat
  all : Bool
  prints : Bool
  ignoresCase : Bool
  target : Option String
  deriving DecidableEq, Repr

def readFlags : Nat → Flags → List Char → Option (Flags × List Char)
  | 0, _, _ => none
  | _, f, [] => some (f, [])
  | n + 1, f, c :: r =>
    match c with
    | 'g' => readFlags n { f with all := true } r
    | 'p' => readFlags n { f with prints := true } r
    | 'i' | 'I' => readFlags n { f with ignoresCase := true } r
    | 'm' | 'M' | 'e' => readFlags n f r
    | 'w' =>
      let path := (r.dropWhile (· = ' ')).takeWhile (· ≠ '\n')
      some ({ f with target := some (String.ofList path) }, r.dropWhile (· ≠ '\n'))
    | c =>
      if c.isDigit then
        let (k, rest) := digits 10 0 (c :: r)
        readFlags n { f with nth := k } rest
      else some (f, c :: r)

def readName (cs : List Char) (semicolonEnds : Bool) : String × List Char :=
  let cs := cs.dropWhile fun c => c = ' ' || c = '\t'
  let name := cs.takeWhile fun c => c ≠ '\n' && !(semicolonEnds && (c = ';' || c = '}'))
  (String.ofList (name.reverse.dropWhile isSpace).reverse, cs.drop name.length)

def readAction (style : Regex.Style) (cs : List Char) : Option (Action × List Char) :=
  match cs with
  | '{' :: r => some (.opening, r)
  | '}' :: r => some (.closing, r)
  | 'p' :: r => some (.print, r)
  | 'P' :: r => some (.printFirst, r)
  | 'd' :: r => some (.delete, r)
  | 'D' :: r => some (.deleteFirst, r)
  | '=' :: r => some (.number, r)
  | 'n' :: r => some (.next, r)
  | 'N' :: r => some (.appendNext, r)
  | 'h' :: r => some (.hold, r)
  | 'H' :: r => some (.holdAppend, r)
  | 'g' :: r => some (.get, r)
  | 'G' :: r => some (.getAppend, r)
  | 'x' :: r => some (.exchange, r)
  | 'q' :: r =>
    let (n, rest) := digits 10 0 (r.dropWhile (· = ' '))
    some (.quit n true, rest)
  | 'Q' :: r =>
    let (n, rest) := digits 10 0 (r.dropWhile (· = ' '))
    some (.quit n false, rest)
  | 'a' :: r => let (text, rest) := readAdded r; some (.append text, rest)
  | 'i' :: r => let (text, rest) := readAdded r; some (.insert text, rest)
  | 'c' :: r => let (text, rest) := readAdded r; some (.change text, rest)
  | 'r' :: r => let (name, rest) := readName r false; some (.read name, rest)
  | 'w' :: r => let (name, rest) := readName r false; some (.write name, rest)
  | ':' :: r => let (name, rest) := readName r true; some (.label name, rest)
  | 'b' :: r => let (name, rest) := readName r true; some (.jump name, rest)
  | 't' :: r => let (name, rest) := readName r true; some (.jumpIfChanged name true, rest)
  | 'T' :: r => let (name, rest) := readName r true; some (.jumpIfChanged name false, rest)
  | '#' :: r => some (.nothing, r.dropWhile (· ≠ '\n'))
  | 's' :: d :: r =>
    match delimited d true (r.length + 1) false r with
    | none => none
    | some (pattern, rest) =>
      match delimited d false (rest.length + 1) false rest with
      | none => none
      | some (replacement, rest) =>
        match readFlags (rest.length + 1) ⟨1, false, false, false, none⟩ rest with
        | none => none
        | some (f, rest) =>
          (readRegex { style with ignoresCase := f.ignoresCase } pattern).map fun x =>
            (.substitute x (readPieces (replacement.length + 1) replacement) f.nth f.all f.prints
              f.target, rest)
  | 'y' :: d :: r =>
    match delimited d false (r.length + 1) false r with
    | none => none
    | some (source, rest) =>
      match delimited d false (rest.length + 1) false rest with
      | none => none
      | some (target, rest) =>
        let plain (cs : List Char) : List Char := (readPieces (cs.length + 1) cs).flatMap fun p =>
          match p with
          | .text cs => cs
          | .group 0 => ['&']
          | _ => []
        if (plain source).length = (plain target).length then
          some (.replaceChars ((plain source).zip (plain target)), rest)
        else none
  | _ => none

def readSteps (style : Regex.Style) : Nat → List Char → Option (List Step)
  | 0, _ => none
  | n + 1, cs =>
    match cs.dropWhile fun c => isSpace c || c = ';' with
    | [] => some []
    | cs => do
      let (first, r) ← readAddress? style cs
      let r := dropBlanks r
      let (upTo, r) ← match first, r with
        | some _, ',' :: r => (readRangeEnd? style (dropBlanks r)).map fun (e, r) => (some e, r)
        | _, r => some (none, r)
      let r := dropBlanks r
      let negated := r.head? = some '!'
      let r := r.dropWhile fun c => c = '!' || c = ' '
      let (action, r) ← readAction style r
      let rest := r.dropWhile fun c => c = ' ' || c = '\t'
      let ends := match action, rest with
        | .opening, _ | .append _, _ | .insert _, _ | .change _, _ | .label _, _ => true
        | _, [] => true
        | _, c :: _ => c = ';' || c = '\n' || c = '}' || c = '#'
      if ends then
        let steps ← readSteps style n rest
        return ⟨first, upTo, negated, action⟩ :: steps
      else none

/-! ## Running -/

structure State where
  space : List Char
  held : List Char
  number : Nat
  /-- Lines that have not been read, and whether the last one has an end. -/
  left : List String
  ended : Bool
  output : String
  /-- What is printed after the line. -/
  later : String
  writes : List (String × String)
  /-- The steps whose ranges have begun, with the line at which they end if it is known. -/
  active : List (Nat × Option Nat)
  lastRegex : Option Regex
  changed : Bool
  status : Nat

inductive Flow
  | at (step : Nat)
  /-- The end of the script, at which the line is printed or not. -/
  | done (prints : Bool)
  /-- Runs the script again without reading a line. -/
  | again
  | quit (prints : Bool)
  deriving DecidableEq, Repr

def State.isLast (s : State) : Bool :=
  s.left.isEmpty

def State.emit (s : State) (cs : List Char) : State :=
  let stop := if s.isLast && !s.ended then "" else "\n"
  { s with output := s.output ++ String.ofList cs ++ stop }

def State.useRegex (s : State) (r : Option Regex) : Regex × State :=
  let r := (r.orElse fun _ => s.lastRegex).getD .empty
  (r, { s with lastRegex := some r })

def State.picks (s : State) (a : Address) : Bool × State :=
  match a with
  | .line n => (s.number = n, s)
  | .last => (s.isLast, s)
  | .step first step =>
    (if step = 0 then s.number = first
      else first ≤ s.number && (s.number - first) % step = 0, s)
  | .matching r =>
    let (r, s) := s.useRegex r
    (r.matchesIn s.space, s)

/-- Whether a step applies to the line, and the ranges that have begun then. -/
def State.applies (s : State) (index : Nat) (step : Step) : Bool × State :=
  match step.first, step.upTo with
  | none, _ => (true, s)
  | some a, none => s.picks a
  | some a, some upTo =>
    let stop := { s with active := s.active.filter (·.1 ≠ index) }
    match s.active.lookup index with
    | some known =>
      match known, upTo with
      | some n, _ => if s.number < n then (true, s) else (s.number = n, stop)
      | none, .address a =>
        let (ends, s) := s.picks a
        (true, if ends then { s with active := s.active.filter (·.1 ≠ index) } else s)
      | none, _ => (true, stop)
    | none =>
      let (begins, s) := match a with
        | .line 0 => (s.number = 1, s)
        | a => s.picks a
      if !begins then (false, s)
      else
        let start (known : Option Nat) : State := { s with active := (index, known) :: s.active }
        match upTo with
        | .count n => (true, if n = 0 then s else start (some (s.number + n)))
        | .multiple n =>
          let stop := if n = 0 then s.number else (s.number + n - 1) / n * n
          (true, if stop ≤ s.number then s else start (some stop))
        | .address (.line n) => (true, if n ≤ s.number then s else start (some n))
        | .address b =>
          match a with
          | .line 0 =>
            let (ends, s') := s.picks b
            (true, if ends then s' else { s' with active := (index, none) :: s'.active })
          | _ => (true, if s.isLast then s else start none)

def fill (m : Regex.Match) : CaseChange → CaseChange → List Piece → List Char
  | _, _, [] => []
  | mode, _, .caseChange c :: ps =>
    match c with
    | .upperNext | .lowerNext => fill m mode c ps
    | c => fill m c .none ps
  | mode, next, p :: ps =>
    let cs := match p with
      | .text cs => cs
      | .group 0 => m.text
      | .group n => (m.groups.lookup n).getD []
      | .caseChange _ => []
    let shown := match mode with
      | .upper => cs.map Char.toUpper
      | .lower => cs.map Char.toLower
      | _ => cs
    match next, shown with
    | .upperNext, c :: r => c.toUpper :: r ++ fill m mode .none ps
    | .lowerNext, c :: r => c.toLower :: r ++ fill m mode .none ps
    | next, shown => shown ++ fill m mode next ps

/-- Replaces matches from the `nth` on: one of them, or all. -/
def replace (r : Regex) (pieces : List Piece) (nth : Nat) (all : Bool) (text : List Char) :
    Nat → Nat → Nat → Bool → List Char × Bool
  | 0, _, start, _ => (text.drop start, false)
  | fuel + 1, count, start, afterMatch =>
    match r.match? text start with
    | none => (text.drop start, false)
    | some m =>
      let place := m.before.length
      let stop := place + m.text.length
      let before := (text.drop start).take (place - start)
      if m.text.isEmpty && afterMatch && place = start then
        match text.drop start with
        | [] => ([], false)
        | c :: _ =>
          let (rest, changed) := replace r pieces nth all text fuel count (start + 1) false
          (c :: rest, changed)
      else
        let chosen := nth ≤ count + 1 && (all || count + 1 = nth)
        let shown := if chosen then fill m .none .none pieces else m.text
        if chosen && !all then (before ++ shown ++ text.drop stop, true)
        else
          let (step, next) := if m.text.isEmpty then ((text.drop stop).take 1, stop + 1)
            else ([], stop)
          if text.length < next then (before ++ shown ++ step, chosen)
          else
            let (rest, changed) :=
              replace r pieces nth all text fuel (count + 1) next (!m.text.isEmpty)
            (before ++ shown ++ step ++ rest, chosen || changed)

def State.advance (s : State) : Option State :=
  match s.left with
  | [] => none
  | line :: left => some { s with space := line.toList, left, number := s.number + 1 }

def State.flush (s : State) : State :=
  { s with output := s.output ++ s.later, later := "" }

def findLabel (steps : List Step) (name : String) : Nat :=
  if name = "" then steps.length
  else steps.findIdx fun step => match step.action with
    | .label n => n = name
    | _ => false

def afterBraces : Nat → Nat → List Step → Nat
  | i, _, [] => i
  | i, depth, step :: rest =>
    match step.action, depth with
    | .closing, 0 => i + 1
    | .closing, d + 1 => afterBraces (i + 1) d rest
    | .opening, d => afterBraces (i + 1) (d + 1) rest
    | _, d => afterBraces (i + 1) d rest

def runAction (files : String → Option String) (quiet : Bool) (steps : List Step) (i : Nat)
    (step : Step) (s : State) : Flow × State :=
  let on := Flow.at (i + 1)
  match step.action with
  | .nothing | .label _ | .opening | .closing => (on, s)
  | .print => (on, s.emit s.space)
  | .printFirst =>
    let line := String.ofList (s.space.takeWhile (· ≠ '\n')) ++ "\n"
    (on, { s with output := s.output ++ line })
  | .delete => (.done false, s)
  | .deleteFirst =>
    if s.space.contains '\n' then
      (.again, { s with space := (s.space.dropWhile (· ≠ '\n')).drop 1 })
    else (.done false, s)
  | .number => (on, { s with output := s.output ++ toString s.number ++ "\n" })
  | .append text => (on, { s with later := s.later ++ text })
  | .insert text => (on, { s with output := s.output ++ text })
  | .change text =>
    let ends := step.upTo.isNone || step.negated || (s.active.lookup i).isNone
    (.done false, if ends then { s with output := s.output ++ text } else s)
  | .next =>
    let s := if quiet then s else if s.isLast then s else s.emit s.space
    match s.flush.advance with
    | some s => (on, s)
    | none => (.quit true, s)
  | .appendNext =>
    let before := s.space
    match s.flush.advance with
    | some s => (on, { s with space := before ++ '\n' :: s.space })
    | none => (.quit true, s)
  | .hold => (on, { s with held := s.space })
  | .holdAppend => (on, { s with held := s.held ++ '\n' :: s.space })
  | .get => (on, { s with space := s.held })
  | .getAppend => (on, { s with space := s.space ++ '\n' :: s.held })
  | .exchange => (on, { s with space := s.held, held := s.space })
  | .quit status prints => (.quit prints, { s with status })
  | .read path => (on, { s with later := s.later ++ (files path).getD "" })
  | .write path => (on, { s with writes := s.writes ++ [(path, String.ofList s.space ++ "\n")] })
  | .jump name => (.at (findLabel steps name), s)
  | .jumpIfChanged name changed =>
    if s.changed = changed then (.at (findLabel steps name), { s with changed := false })
    else (on, { s with changed := false })
  | .replaceChars pairs =>
    (on, { s with space := s.space.map fun c => (pairs.lookup c).getD c })
  | .substitute r pieces nth all prints target =>
    let (r, s) := s.useRegex r
    let (space, changed) := replace r pieces nth all s.space (s.space.length + 2) 0 0 false
    if !changed then (on, s)
    else
      let s := { s with space, changed := true }
      let s := if prints then s.emit s.space else s
      match target with
      | some "/dev/stdout" => (on, s.emit s.space)
      | some path =>
        (on, { s with writes := s.writes ++ [(path, String.ofList s.space ++ "\n")] })
      | none => (on, s)

def runSteps (files : String → Option String) (quiet : Bool) (steps : List Step) :
    Nat → Nat → State → Flow × State
  | 0, _, s => (.done true, s)
  | n + 1, i, s =>
    match steps[i]? with
    | none => (.done true, s)
    | some step =>
      let (applies, s) := s.applies i step
      if applies = step.negated then
        match step.action with
        | .opening => runSteps files quiet steps n (afterBraces (i + 1) 0 (steps.drop (i + 1))) s
        | _ => runSteps files quiet steps n (i + 1) s
      else
        match runAction files quiet steps i step s with
        | (.at j, s) => runSteps files quiet steps n j s
        | ended => ended

/-- Runs the script for every line. -/
def runLines (files : String → Option String) (quiet : Bool) (steps : List Step) :
    Nat → Bool → State → State
  | 0, _, s => s
  | n + 1, reads, s =>
    match if reads then s.advance else some s with
    | none => s
    | some s =>
      let s := { s with changed := if reads then false else s.changed }
      let (flow, s) := runSteps files quiet steps 100000 0 s
      let shown (prints : Bool) (s : State) : State :=
        (if prints && !quiet then s.emit s.space else s).flush
      match flow with
      | .quit prints => shown prints s
      | .again => runLines files quiet steps n false s.flush
      | .done prints => runLines files quiet steps n true (shown prints s)
      | .at _ => s

def start (text : String) : State :=
  let (lines, ended) := splitLines text
  { space := [], held := [], number := 0, left := lines, ended, output := "", later := "",
    writes := [], active := [], lastRegex := none, changed := false, status := 0 }

def sedTable : OptionTable :=
  ⟨"nErsuzi", "ef", [("quiet", 'n'), ("silent", 'n'), ("expression", 'e'), ("file", 'f'),
    ("regexp-extended", 'E'), ("in-place", 'i'), ("separate", 's')]⟩

def inPlaceSuffix (args : List String) : Option String × List String :=
  args.foldr (fun arg (suffix, rest) =>
    match arg.toList with
    | '-' :: 'i' :: c :: cs => (some (String.ofList (c :: cs)), "-i" :: rest)
    | _ => (suffix, arg :: rest)) (none, [])

def sed : Utility := fun args =>
  let (suffix, args) := inPlaceSuffix args
  withOptions 1 "sed" sedTable args fun p => do
  let given := p.options.filter fun o => o.1 = 'e' || o.1 = 'f'
  let mut script := ""
  for (c, text) in given do
    if c = 'e' then script := script ++ text ++ "\n"
    else
      match ← readFile? text with
      | some content => script := script ++ content ++ "\n"
      | none => return ← refuse 1 "sed" ("couldn't open file " ++ text)
  let (chosen, paths) := match given, p.operands with
    | [], first :: rest => (some first, rest)
    | [], [] => (none, [])
    | _, paths => (some script, paths)
  match chosen with
  | none => refuse 1 "sed" "no script specified"
  | some text =>
    let style : Regex.Style := ⟨p.has 'E' || p.has 'r', false, true⟩
    let quiet := p.has 'n' || text.startsWith "#n\n"
    match readSteps style (text.length + 2) text.toList with
    | none => refuse 1 "sed" "-e expression #1: invalid command"
    | some steps =>
      let disk := (← get).disk
      let files (path : String) : Option String := (disk.readBytes (pathOf path)).map ofBytes
      let finish (s : State) : Act Unit := do
        let targets := (s.writes.map (·.1)).foldl (fun done path =>
          if done.contains path then done else done ++ [path]) []
        for path in targets do
          let text := String.join ((s.writes.filter (·.1 = path)).map (·.2))
          discard (changeDisk fun d => d.write (pathOf path) (toBytes text))
      let mut status := 0
      if p.has 'i' then
        for path in paths do
          match ← readFile? path with
          | some text =>
            let s := runLines files quiet steps (text.length + 100000) true (start text)
            if let some suffix := suffix then
              discard (changeDisk fun d => d.write (pathOf (path ++ suffix)) (toBytes text))
            discard (changeDisk fun d => d.write (pathOf path) (toBytes s.output))
            finish s
          | none =>
            grumble "sed" ("can't read " ++ path ++ ": " ++ (← readingFault path))
            status := 2
      else
        let (contents, fine) ← readFiles "sed" paths
        unless fine do status := 2
        let texts := contents.map (·.2)
        let joined := String.join (texts.zipIdx.map fun (text, i) =>
          if i + 1 < texts.length && text ≠ "" && !text.endsWith "\n" then text ++ "\n" else text)
        for text in if p.has 's' then texts else [joined] do
          let s := runLines files quiet steps (text.length + 100000) true (start text)
          discard (say s.output)
          finish s
          if s.status ≠ 0 then status := s.status
      return status

end TableMigration.Shell.LineEditor
