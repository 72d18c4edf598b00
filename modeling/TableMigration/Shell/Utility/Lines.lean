import TableMigration.Shell.Utility.Basic

/-!
# Programs that go through lines

Programs that print files or their input, or some lines of them.
-/

namespace TableMigration.Shell.Lines

/-- Whether the output is this file, which would then be read for ever. -/
def readsItself (path : String) : Act Bool := do
  let s ← get
  let input := if path = "-" then
      match s.channel? 0 with
      | some (_, .file names ..) => some names
      | _ => none
    else
      match s.disk.locate (pathOf path) with
      | .found names => some names
      | _ => none
  match s.channel? 1, input with
  | some (_, .file names ..), some names' =>
    match s.disk.find? names with
    | some (.file content _) => return names = names' && !content.isEmpty
    | _ => return false
  | _, _ => return false

def padded (width n : Nat) : String :=
  let text := toString n
  String.ofList (List.replicate (width - text.length) ' ') ++ text

structure Showing where
  numbers : Bool
  numbersText : Bool
  squeezes : Bool
  ends : Bool
  tabs : Bool
  marks : Bool
  deriving DecidableEq, Repr

def visible (showing : Showing) (c : Char) : List Char :=
  if c = '\n' then [c]
  else if c = '\t' then if showing.tabs then ['^', 'I'] else [c]
  else if !showing.marks then [c]
  else
    let low (n : Nat) : List Char :=
      if n < 32 then ['^', Char.ofNat (n + 64)] else if n = 127 then ['^', '?'] else [Char.ofNat n]
    if c.toNat < 128 then low c.toNat else 'M' :: '-' :: low (c.toNat - 128)

def showLines (showing : Showing) : Nat → Bool → List String → List String
  | _, _, [] => []
  | n, afterEmpty, line :: rest =>
    let isEmpty := line = "\n"
    if showing.squeezes && afterEmpty && isEmpty then showLines showing n true rest
    else
      let numbered := if showing.numbersText then !isEmpty else showing.numbers
      let text := String.ofList (line.toList.flatMap (visible showing))
      let text :=
        if showing.ends && line.endsWith "\n" then (text.dropEnd 1).toString ++ "$\n" else text
      (if numbered then padded 6 n ++ "\t" ++ text else text) ::
        showLines showing (if numbered then n + 1 else n) isEmpty rest

def catTable : OptionTable :=
  ⟨"nbsETvAetu", "", [("number", 'n'), ("number-nonblank", 'b'), ("squeeze-blank", 's'),
    ("show-ends", 'E'), ("show-tabs", 'T'), ("show-nonprinting", 'v'), ("show-all", 'A')]⟩

def cat : Utility := fun args => withOptions 1 "cat" catTable args fun p => do
  let mut texts := []
  let mut status := 0
  for path in if p.operands.isEmpty then ["-"] else p.operands do
    if ← readsItself path then
      grumble "cat" (path ++ ": input file is output file")
      status := 1
    else
      match ← readFile? path with
      | some text =>
        if p.options.isEmpty then
          unless ← say text do
            grumble "cat" "write error"
            status := 1
        else texts := texts ++ [text]
      | none =>
        grumble "cat" (path ++ ": " ++ (← readingFault path))
        status := 1
  let showing : Showing :=
    { numbers := p.has 'n'
      numbersText := p.has 'b'
      squeezes := p.has 's'
      ends := p.has 'E' || p.has 'A' || p.has 'e'
      tabs := p.has 'T' || p.has 'A' || p.has 't'
      marks := p.has 'v' || p.has 'A' || p.has 'e' || p.has 't' }
  unless ← say (String.join (showLines showing 1 false (keepLines (String.join texts)))) do
    return 1
  return status

/-! ## Starts and ends of files -/

def modernized : List String → List String
  | [] => []
  | arg :: args =>
    match arg.toList with
    | '-' :: c :: cs =>
      if c.isDigit && cs.all Char.isDigit then "-n" :: String.ofList (c :: cs) :: args
      else arg :: args
    | _ => arg :: args

def printParts (program : String) (p : Parsed) (part : String → String) : Act Nat := do
  let paths := if p.operands.isEmpty then ["-"] else p.operands
  let titled := p.has 'v' || (1 < paths.length && !p.has 'q')
  let mut status := 0
  let mut first := true
  for path in paths do
    let whole ← if path = "-" then unread? 0 else pure ((← get).disk.readBytes (pathOf path))
    match whole with
    | none =>
      grumble program ("cannot open '" ++ path ++ "' for reading: " ++ (← readingFault path))
      status := 1
    | some bytes =>
      let text := ofBytes bytes
      let shown := part text
      if path = "-" then
        let seeks : Bool := match (← get).channel? 0 with
          | some (_, .file ..) => program == "head"
          | _ => false
        consume 0 (if seeks then shown.length else bytes.size)
      let title := if path = "-" then "standard input" else path
      let gap := if first then "" else "\n"
      let title := if titled then gap ++ "==> " ++ title ++ " <==\n" else ""
      first := false
      unless ← say (title ++ shown) do status := 1
  return status

def partTable : OptionTable :=
  ⟨"qvzfF", "nc", [("lines", 'n'), ("bytes", 'c'), ("quiet", 'q'), ("silent", 'q'),
    ("verbose", 'v'), ("follow", 'f')]⟩

def takeText (n : Nat) (text : String) : String :=
  String.ofList (text.toList.take n)

def dropText (n : Nat) (text : String) : String :=
  String.ofList (text.toList.drop n)

def head : Utility := fun args => withOptions 1 "head" partTable (modernized args) fun p => do
  let count := (p.options.filter fun o => o.1 = 'n' || o.1 = 'c').getLast?
  let value := match count with
    | some (_, value) => value
    | none => "10"
  let fromEnd := value.toList.head? = some '-'
  match readSize? (if fromEnd then dropText 1 value else value) with
  | none => refuse 1 "head" ("invalid number of lines: '" ++ value ++ "'")
  | some n =>
    printParts "head" p fun text =>
      if count.any (·.1 = 'c') then takeText (if fromEnd then text.length - n else n) text
      else
        let lines := keepLines text
        String.join (lines.take (if fromEnd then lines.length - n else n))

def tail : Utility := fun args =>
  let args := match args with
    | arg :: rest => match arg.toList with
      | '+' :: c :: cs => if (c :: cs).all Char.isDigit then "-n" :: arg :: rest else args
      | _ => modernized args
    | [] => []
  withOptions 1 "tail" partTable args fun p => do
  let count := (p.options.filter fun o => o.1 = 'n' || o.1 = 'c').getLast?
  let value := match count with
    | some (_, value) => value
    | none => "10"
  let fromStart := value.toList.head? = some '+'
  let signed := fromStart || value.toList.head? = some '-'
  match readSize? (if signed then dropText 1 value else value) with
  | none => refuse 1 "tail" ("invalid number of lines: '" ++ value ++ "'")
  | some n =>
    printParts "tail" p fun text =>
      if count.any (·.1 = 'c') then dropText (if fromStart then n - 1 else text.length - n) text
      else
        let lines := keepLines text
        String.join (lines.drop (if fromStart then n - 1 else lines.length - n))

def tac : Utility := fun args => withOptions 1 "tac" ⟨"", "", []⟩ args fun p => do
  let (contents, fine) ← readFiles "tac" p.operands
  for (_, text) in contents do
    discard (say (String.join (keepLines text).reverse))
  return if fine then 0 else 1

def rev : Utility := fun args => withOptions 1 "rev" ⟨"", "", []⟩ args fun p => do
  let (contents, fine) ← readFiles "rev" p.operands
  for (_, text) in contents do
    let (lines, ended) := splitLines text
    let lines := lines.map fun l => String.ofList l.toList.reverse
    discard (say ("\n".intercalate lines ++ if ended && !lines.isEmpty then "\n" else ""))
  return if fine then 0 else 1

/-! ## Counting -/

structure Counts where
  lines : Nat
  words : Nat
  chars : Nat
  bytes : Nat
  longest : Nat
  deriving DecidableEq, Repr

def Counts.of (text : String) : Counts where
  lines := text.toList.count '\n'
  words := ((text.toList.splitBy fun a b => isSpace a == isSpace b).filter fun w =>
    !w.all isSpace).length
  chars := text.length
  bytes := text.length
  longest := ((splitLines text).1.map String.length).foldl max 0

def Counts.add (a b : Counts) : Counts :=
  ⟨a.lines + b.lines, a.words + b.words, a.chars + b.chars, a.bytes + b.bytes,
    max a.longest b.longest⟩

def countTable : OptionTable :=
  ⟨"lwcmL", "", [("lines", 'l'), ("words", 'w'), ("bytes", 'c'), ("chars", 'm'),
    ("max-line-length", 'L')]⟩

def wc : Utility := fun args => withOptions 1 "wc" countTable args fun p => do
  let paths := if p.operands.isEmpty then ["-"] else p.operands
  let shows (c : Char) : Bool := if p.options.isEmpty then "lwc".toList.contains c else p.has c
  let s ← get
  let regular (path : String) : Option Nat :=
    if path = "-" then
      match s.channel? 0 with
      | some (_, .file names ..) => match s.disk.find? names with
        | some (.file content _) => some content.size
        | _ => none
      | _ => none
    else
      match s.disk.lookup? (pathOf path) with
      | some (.file content _) => some content.size
      | _ => none
  let columns := ("lwmcL".toList.filter shows).length
  let missing (path : String) : Bool := path ≠ "-" && (s.disk.lookup? (pathOf path)).isNone
  let width :=
    if paths.length = 1 && columns = 1 then 1
    else
      let total := (paths.filterMap regular).foldl (· + ·) 0
      let least := if paths.any fun path => (regular path).isNone && !missing path then 7 else 1
      max least (toString total).length
  let written (c : Counts) (name : String) : String :=
    let numbers := [('l', c.lines), ('w', c.words), ('m', c.chars), ('c', c.bytes),
      ('L', c.longest)].filter fun n => shows n.1
    " ".intercalate (numbers.map fun n => padded width n.2) ++
      (if name = "" then "" else " " ++ name) ++ "\n"
  let mut total : Counts := ⟨0, 0, 0, 0, 0⟩
  let mut status := 0
  for path in paths do
    match ← readFile? path with
    | some text =>
      let c := Counts.of text
      total := total.add c
      unless ← say (written c (if p.operands.isEmpty then "" else path)) do status := 1
    | none =>
      grumble "wc" (path ++ ": " ++ (← readingFault path))
      status := 1
      if (← entry? path) = some .directory then
        discard (say (written ⟨0, 0, 0, 0, 0⟩ path))
  if 1 < paths.length then
    unless ← say (written total "total") do status := 1
  return status

/-! ## Copies and numbers -/

def tee : Utility := fun args =>
  withOptions 1 "tee" ⟨"ai", "", [("append", 'a'), ("ignore-interrupts", 'i')]⟩ args fun p => do
  let text := (← readAll? 0).getD ""
  let mut status := 0
  unless ← say text do status := 1
  for path in p.operands do
    let change (d : Disk) : Option Disk :=
      if p.has 'a' then d.append (pathOf path) (toBytes text)
      else d.write (pathOf path) (toBytes text)
    unless ← changeDisk change do
      let fault := if (← entry? path) = some .directory then "Is a directory"
        else "No such file or directory"
      grumble "tee" (path ++ ": " ++ fault)
      status := 1
  return status

def nl : Utility := fun args => withOptions 1 "nl" ⟨"p", "bwsvinfh", []⟩ args fun p => do
  let (contents, fine) ← readFiles "nl" p.operands
  let width := ((p.value? 'w').bind readSize?).getD 6
  let separator := (p.value? 's').getD "\t"
  let all := p.value? 'b' = some "a"
  let nothing := p.value? 'b' = some "n"
  let filler (n : Nat) (c : Char) : String :=
    String.ofList (List.replicate (width - (toString n).length) c)
  let mut n := ((p.value? 'v').bind readSize?).getD 1
  for line in (splitLines (String.join (contents.map (·.2)))).1 do
    if !nothing && (all || line ≠ "") then
      let shown := match p.value? 'n' with
        | some "ln" => toString n ++ filler n ' '
        | some "rz" => filler n '0' ++ toString n
        | _ => padded width n
      discard (say (shown ++ separator ++ line ++ "\n"))
      n := n + 1
    else
      let blank := String.ofList (List.replicate (width + separator.length) ' ')
      discard (say (blank ++ line ++ "\n"))
  return if fine then 0 else 1

def paste : Utility := fun args =>
  withOptions 1 "paste" ⟨"s", "d", [("serial", 's'), ("delimiters", 'd')]⟩ args fun p => do
  let delimiters := match (p.value? 'd').getD "\t" with
    | "\\n" => ['\n']
    | "\\t" => ['\t']
    | text => text.toList
  let joint (i : Nat) : String :=
    if delimiters.isEmpty then "" else ((delimiters[i % delimiters.length]?).getD '\t').toString
  let join (texts : List String) : String :=
    String.join (texts.zipIdx.map fun (t, i) => if i = 0 then t else joint (i - 1) ++ t) ++ "\n"
  let (contents, fine) ← readFiles "paste" p.operands
  let columns := contents.map fun c => (splitLines c.2).1
  if p.has 's' then
    for column in columns do discard (say (join column))
  else if columns.length = 1 then
    for line in columns.flatten do discard (say (line ++ "\n"))
  else
    -- The input, if named several times, is dealt out line by line.
    let inputs := (p.operands.filter (· = "-")).length
    if 1 < inputs && inputs = p.operands.length then
      let lines := columns.head?.getD []
      for i in List.range ((lines.length + inputs - 1) / inputs) do
        discard (say (join ((List.range inputs).map fun j => (lines[i * inputs + j]?).getD "")))
    else
      let rows := (columns.map List.length).foldl max 0
      for i in List.range rows do
        discard (say (join (columns.map fun column => (column[i]?).getD "")))
  return if fine then 0 else 1

def pieces (width : Nat) : Nat → List Char → List (List Char)
  | 0, cs => [cs]
  | n + 1, cs =>
    if cs.length ≤ width || width = 0 then [cs]
    else cs.take width :: pieces width n (cs.drop width)

def fold : Utility := fun args => withOptions 1 "fold" ⟨"bs", "w", []⟩ args fun p => do
  let width := ((p.value? 'w').bind readSize?).getD 80
  let (contents, fine) ← readFiles "fold" p.operands
  for (_, text) in contents do
    let lines := (keepLines text).map fun l =>
      let ended := l.endsWith "\n"
      let body := (if ended then l.dropEnd 1 else l.toSlice).toString
      "\n".intercalate ((pieces width body.length body.toList).map String.ofList) ++
        if ended then "\n" else ""
    discard (say (String.join lines))
  return if fine then 0 else 1

/-- A number with places after the point, as a whole number of the smallest ones. -/
def readPlaces? (text : String) : Option (Int × Nat) :=
  let (negative, cs) := match text.toList with
    | '-' :: r => (true, r)
    | '+' :: r => (false, r)
    | r => (false, r)
  let whole := cs.takeWhile Char.isDigit
  let rest := cs.drop whole.length
  let part := match rest with
    | '.' :: r => r
    | _ => []
  if (whole ++ part).isEmpty || !part.all Char.isDigit || (part.isEmpty && !rest.isEmpty) then none
  else
    let n : Int := (digits 10 0 (whole ++ part)).1
    some (if negative then -n else n, part.length)

/-- A whole number of the smallest places as text, its digits brought to a width by zeros. -/
def showPlaces (places width : Nat) (n : Int) : String :=
  let ds := Nat.toDigits 10 n.natAbs
  let sign := if n < 0 then ['-'] else []
  let ds := List.replicate (places + 1 - ds.length) '0' ++ ds
  let point := if places = 0 then [] else ['.']
  let body := ds.take (ds.length - places) ++ point ++ ds.drop (ds.length - places)
  String.ofList (sign ++ List.replicate (width - sign.length - body.length) '0' ++ body)

/-- Reads the options of a list of numbers, of which negative ones are none. -/
def sequenceOptions : List String → Parsed
  | "-s" :: text :: rest => (sequenceOptions rest).add 's' text
  | "-f" :: text :: rest => (sequenceOptions rest).add 'f' text
  | "-w" :: rest => (sequenceOptions rest).add 'w' ""
  | arg :: rest =>
    match arg.toList with
    | '-' :: 's' :: text => (sequenceOptions rest).add 's' (String.ofList text)
    | _ => ⟨[], arg :: rest⟩
  | [] => ⟨[], []⟩

def seq : Utility := fun args => do
  let p := sequenceOptions args
  let numbers := p.operands.mapM readPlaces?
  let range := match numbers with
    | some [last] => some ((1, 0), (1, 0), last)
    | some [first, last] => some (first, (1, 0), last)
    | some [first, step, last] => some (first, step, last)
    | _ => none
  match range with
  | none => refuse 1 "seq" "invalid argument"
  | some (first, step, last) =>
    let places := max first.2 step.2
    let scale (x : Int × Nat) : Int := x.1 * Nat.pow 10 (places - x.2)
    let finest := max places last.2
    let fine (x : Int × Nat) : Int := x.1 * Nat.pow 10 (finest - x.2)
    if step.1 = 0 then refuse 1 "seq" "invalid Zero increment value: '0'"
    else
      let count := ((fine last - fine first) / fine step + 1).toNat
      let values : List Int :=
        (List.range count).map fun (i : Nat) => scale first + scale step * (i : Int)
      let width := if p.has 'w' then
          ((values.map fun v => (showPlaces places 0 v).length) ++
            [(showPlaces places 0 (scale first)).length]).foldl max 0
        else 0
      if values.isEmpty then return 0
      let separator := (p.value? 's').getD "\n"
      sayAll "seq" (separator.intercalate (values.map (showPlaces places width)) ++ "\n")

/-- Prints more lines than any reader takes. -/
def yes : Utility := fun args => do
  let line := (if args.isEmpty then "y" else " ".intercalate args) ++ "\n"
  discard (say (String.join (List.replicate 5000 line)))
  return 0

end TableMigration.Shell.Lines
