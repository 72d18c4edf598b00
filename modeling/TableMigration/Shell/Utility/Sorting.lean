import TableMigration.Shell.Pattern
import TableMigration.Shell.Utility.Basic

/-!
# Programs that order and cut lines

Sorting, what to do with lines that repeat, and pieces of lines and characters of a kind.
-/

namespace TableMigration.Shell.Sorting

/-! ## Sorting -/

structure KeyOrder where
  numeric : Bool
  folds : Bool
  skipsBlanks : Bool
  reversed : Bool
  dictionary : Bool
  version : Bool
  deriving DecidableEq, Repr

/-- A part of a line: fields and characters in them, counted from one. -/
structure Key where
  startField : Nat
  startChar : Nat
  /-- No end is the end of the line, and no character the end of the field. -/
  endField : Option Nat
  endChar : Nat
  order : KeyOrder
  deriving DecidableEq, Repr

def plainOrder : KeyOrder := ⟨false, false, false, false, false, false⟩

def KeyOrder.addLetter? (o : KeyOrder) (c : Char) : Option KeyOrder :=
  match c with
  | 'n' | 'g' | 'h' => some { o with numeric := true }
  | 'f' => some { o with folds := true }
  | 'b' => some { o with skipsBlanks := true }
  | 'r' => some { o with reversed := true }
  | 'd' => some { o with dictionary := true }
  | 'V' => some { o with version := true }
  | 'i' => some o
  | _ => none

def readKeyPart (cs : List Char) : Nat × Nat × List Char :=
  let (field, rest) := digits 10 0 cs
  match rest with
  | '.' :: r =>
    let (char, rest) := digits 10 0 r
    (field, char, rest)
  | _ => (field, 0, rest)

/-- Reads a key; letters of its own take the place of those given for all keys. -/
def Key.read? (global : KeyOrder) (text : String) : Option Key := do
  let (startField, startChar, rest) := readKeyPart text.toList
  if startField = 0 then none
  let letters := rest.takeWhile Char.isAlpha
  let own ← letters.foldlM KeyOrder.addLetter? plainOrder
  match rest.drop letters.length with
  | [] =>
    return ⟨startField, max startChar 1, none, 0, if letters.isEmpty then global else own⟩
  | ',' :: r =>
    let (endField, endChar, rest) := readKeyPart r
    let own ← rest.foldlM KeyOrder.addLetter? own
    return ⟨startField, max startChar 1, some endField, endChar,
      if letters.isEmpty && rest.isEmpty then global else own⟩
  | _ => none

/-- The start of each field with its length. Without a separator a field takes the blanks before
it. -/
def fieldSpans (separator : Option Char) (line : List Char) : List (Nat × Nat) :=
  match separator with
  | some c =>
    let lengths := (line.splitBy fun a _ => a ≠ c).flatMap fun piece =>
      [piece.length]
    -- Every piece but the last one ends in the separator.
    let starts := lengths.foldl (fun (place, done) n => (place + n, done ++ [(place, n)])) (0, [])
    let spans := starts.2.map fun (start, n) =>
      (start, if (line.drop (start + n - 1)).head? = some c then n - 1 else n)
    if line.getLast? = some c || line.isEmpty then spans ++ [(line.length, 0)] else spans
  | none =>
    let isGap (c : Char) : Bool := c == ' ' || c == '\t'
    let pieces := line.splitBy fun a b => isGap a || !isGap b
    (pieces.foldl (fun (place, done) piece =>
      (place + piece.length, done ++ [(place, piece.length)])) ((0, []) : Nat × List (Nat × Nat))).2

def Key.cut (k : Key) (separator : Option Char) (line : List Char) : List Char :=
  let spans := fieldSpans separator line
  let blanks (start : Nat) : Nat :=
    if k.order.skipsBlanks then
      ((line.drop start).takeWhile fun c => c = ' ' || c = '\t').length
    else 0
  let start := match spans[k.startField - 1]? with
    | some (s, _) => s + blanks s + (k.startChar - 1)
    | none => line.length
  let stop := match k.endField with
    | none => line.length
    | some 0 => line.length
    | some f =>
      match spans[f - 1]? with
      | none => line.length
      | some (s, n) => if k.endChar = 0 then s + n else s + blanks s + k.endChar
  (line.drop start).take (stop - start)

/-- A number at the start of a text: its sign, the digits before and after the point. -/
def leadingNumber (cs : List Char) : Bool × Nat × List Char :=
  let cs := cs.dropWhile fun c => c = ' ' || c = '\t'
  let (negative, cs) := match cs with
    | '-' :: r => (true, r)
    | r => (false, r)
  let whole := cs.takeWhile Char.isDigit
  let part := match cs.drop whole.length with
    | '.' :: r => r.takeWhile Char.isDigit
    | _ => []
  (negative, (digits 10 0 whole).1, (part.reverse.dropWhile (· = '0')).reverse)

def compareNumbers (a b : List Char) : Ordering :=
  let (na, wa, pa) := leadingNumber a
  let (nb, wb, pb) := leadingNumber b
  let size (x : Nat) (p : List Char) (y : Nat) (q : List Char) : Ordering :=
    (compare x y).then (compare (String.ofList p) (String.ofList q))
  let zeroA := wa = 0 && pa.isEmpty
  let zeroB := wb = 0 && pb.isEmpty
  match na && !zeroA, nb && !zeroB with
  | false, false => size wa pa wb pb
  | true, true => size wb pb wa pa
  | true, false => .lt
  | false, true => .gt

/-- Texts in which runs of digits count as numbers. -/
def compareVersions : Nat → List Char → List Char → Ordering
  | 0, _, _ => .eq
  | _, [], [] => .eq
  | _, [], _ => .lt
  | _, _, [] => .gt
  | n + 1, a :: as, b :: bs =>
    if a.isDigit && b.isDigit then
      let (x, as') := digits 10 0 (a :: as)
      let (y, bs') := digits 10 0 (b :: bs)
      (compare x y).then (compareVersions n as' bs')
    else (compare a b).then (compareVersions n as bs)

def KeyOrder.compare (o : KeyOrder) (a b : List Char) : Ordering :=
  let prepare (cs : List Char) : List Char :=
    let cs := if o.skipsBlanks then cs.dropWhile fun c => c = ' ' || c = '\t' else cs
    let cs := if o.dictionary then cs.filter fun c => c.isAlphanum || c = ' ' || c = '\t' else cs
    if o.folds then cs.map Char.toUpper else cs
  let r :=
    if o.numeric then compareNumbers a b
    else if o.version then compareVersions (a.length + b.length + 1) a b
    else Ord.compare (String.ofList (prepare a)) (String.ofList (prepare b))
  if o.reversed then r.swap else r

def sortTable : OptionTable :=
  ⟨"nrufbscCdgihVmz", "ktoTS", [("numeric-sort", 'n'), ("reverse", 'r'), ("unique", 'u'),
    ("ignore-case", 'f'), ("ignore-leading-blanks", 'b'), ("stable", 's'), ("check", 'c'),
    ("key", 'k'), ("field-separator", 't'), ("output", 'o'), ("version-sort", 'V')]⟩

def dropRepeats (same : String → String → Bool) : List String → List String
  | a :: b :: rest =>
    if same a b then dropRepeats same (a :: rest) else a :: dropRepeats same (b :: rest)
  | lines => lines
termination_by lines => lines.length

def sort : Utility := fun args => withOptions 2 "sort" sortTable args fun p => do
  let global := p.options.foldl (fun o (c, _) =>
    if "nfbrdghV".toList.contains c then (o.addLetter? c).getD o else o) plainOrder
  let keys := (p.options.filter (·.1 = 'k')).mapM fun o => Key.read? global o.2
  let separator := (p.value? 't').bind fun t => match t.toList with
    | ['\\', 't'] => some '\t'
    | [c] => some c
    | _ => none
  match keys with
  | none => refuse 2 "sort" "invalid key"
  | some keys =>
    let (contents, fine) ← readFiles "sort" p.operands
    unless fine do return 2
    let lines := contents.flatMap fun c => (splitLines c.2).1
    let byKeys (a b : String) : Ordering :=
      if keys.isEmpty then global.compare a.toList b.toList
      else
        keys.foldl (fun r k =>
          r.then (k.order.compare (k.cut separator a.toList) (k.cut separator b.toList))) .eq
    let wholeOrder (a b : String) : Ordering :=
      let last := if global.reversed then (compare a b).swap else compare a b
      if p.has 's' || p.has 'u' then byKeys a b else (byKeys a b).then last
    if p.has 'c' || p.has 'C' then
      let sorted := (lines.zip (lines.drop 1)).all fun (a, b) =>
        if p.has 'u' then byKeys a b = .lt else wholeOrder a b ≠ .gt
      return if sorted then 0 else 1
    let sorted := lines.mergeSort fun a b => wholeOrder a b ≠ .gt
    let sorted := if p.has 'u' then dropRepeats (fun a b => byKeys a b = .eq) sorted else sorted
    let text := joinLinesOf sorted
    match p.value? 'o' with
    | none => sayAll "sort" text
    | some path =>
      if ← changeDisk fun d => d.write (pathOf path) (toBytes text) then return 0
      refuse 2 "sort" ("open failed: " ++ path)

/-! ## Lines that repeat -/

def runs (same : String → String → Bool) (lines : List String) : List (String × Nat) :=
  (lines.splitBy same).filterMap fun run => run.head?.map (·, run.length)

def uniq : Utility := fun args =>
  withOptions 1 "uniq" ⟨"cduiDz", "fsw", [("count", 'c'), ("repeated", 'd'), ("unique", 'u'),
    ("ignore-case", 'i'), ("skip-fields", 'f'), ("skip-chars", 's'), ("check-chars", 'w')]⟩ args
    fun p => do
  let (contents, fine) ← readFiles "uniq" (p.operands.take 1)
  unless fine do return 1
  let number (c : Char) : Nat := ((p.value? c).bind readSize?).getD 0
  let key (line : String) : List Char :=
    let skipField (cs : List Char) : List Char :=
      (cs.dropWhile fun c => c = ' ' || c = '\t').dropWhile fun c => c ≠ ' ' && c ≠ '\t'
    let cs := (List.range (number 'f')).foldl (fun cs _ => skipField cs) line.toList
    let cs := cs.drop (number 's')
    let cs := if p.has 'w' then cs.take (number 'w') else cs
    if p.has 'i' then cs.map Char.toLower else cs
  let lines := contents.flatMap fun c => (splitLines c.2).1
  let shown := (runs (fun a b => key a == key b) lines).filter fun (_, n) =>
    (!p.has 'd' || 1 < n) && (!p.has 'u' || n = 1)
  let text := String.join (shown.map fun (line, n) =>
    if p.has 'c' then
      let count := toString n
      String.ofList (List.replicate (7 - count.length) ' ') ++ count ++ " " ++ line ++ "\n"
    else line ++ "\n")
  match p.operands[1]? with
  | none => sayAll "uniq" text
  | some path =>
    if ← changeDisk fun d => d.write (pathOf path) (toBytes text) then return 0
    refuse 1 "uniq" (path ++ ": No such file or directory")

def comm : Utility := fun args => withOptions 1 "comm" ⟨"123", "", []⟩ args fun p => do
  let (contents, fine) ← readFiles "comm" p.operands
  match fine, contents with
  | true, [(_, a), (_, b)] =>
    let (as, bs) := ((splitLines a).1, (splitLines b).1)
    let indent (column : Nat) : String :=
      String.join (((List.range (column - 1)).map (· + 1)).map fun c =>
        if p.has (Char.ofNat (48 + c)) then "" else "\t")
    let row (column : Nat) (line : String) : String :=
      if p.has (Char.ofNat (48 + column)) then "" else indent column ++ line ++ "\n"
    sayAll "comm" (merge row (as.length + bs.length + 1) as bs)
  | _, _ => return 1
where
  merge (row : Nat → String → String) : Nat → List String → List String → String
    | 0, _, _ => ""
    | n + 1, a :: as, b :: bs =>
      if a = b then row 3 a ++ merge row n as bs
      else if a < b then row 1 a ++ merge row n as (b :: bs)
      else row 2 b ++ merge row n (a :: as) bs
    | _, as, [] => String.join (as.map (row 1))
    | _, [], bs => String.join (bs.map (row 2))

/-! ## Pieces of lines -/

/-- A list of ranges, counted from one; an end that is left out is as far as possible. -/
def readRanges? (text : String) : Option (List (Nat × Nat)) :=
  (text.toList.splitOn ',').mapM fun piece =>
    let far := 1000000
    match piece.splitOn '-' with
    | [n] => if n.isEmpty || !n.all Char.isDigit then none else
        let n := (digits 10 0 n).1
        if n = 0 then none else some (n, n)
    | [a, b] =>
      if !(a ++ b).all Char.isDigit || (a ++ b).isEmpty then none
      else
        let low := if a.isEmpty then 1 else (digits 10 0 a).1
        let high := if b.isEmpty then far else (digits 10 0 b).1
        if low = 0 || high < low then none else some (low, high)
    | _ => none

def cutTable : OptionTable :=
  ⟨"snC", "bcfdO", [("bytes", 'b'), ("characters", 'c'), ("fields", 'f'), ("delimiter", 'd'),
    ("only-delimited", 's'), ("complement", 'C'), ("output-delimiter", 'O')]⟩

def cut : Utility := fun args => withOptions 1 "cut" cutTable args fun p => do
  let byField := p.has 'f'
  let list := if byField then p.value? 'f' else (p.value? 'c').orElse fun _ => p.value? 'b'
  match list.bind readRanges? with
  | none => refuse 1 "cut" "you must specify a list of bytes, characters, or fields"
  | some ranges =>
    let delimiter := (p.value? 'd').getD "\t"
    if delimiter.length ≠ 1 then
      refuse 1 "cut" "the delimiter must be a single character"
    else
      let joint := (p.value? 'O').getD (if byField then delimiter else "")
      let chosen (i : Nat) : Bool :=
        (ranges.any fun (low, high) => low ≤ i + 1 && i + 1 ≤ high) != p.has 'C'
      let (contents, fine) ← readFiles "cut" p.operands
      let one (line : String) : String :=
        if byField then
          let fields := line.splitOn delimiter
          if fields.length = 1 then if p.has 's' then "" else line ++ "\n"
          else
            let kept := fields.zipIdx.filter fun f => chosen f.2
            joint.intercalate (kept.map (·.1)) ++ "\n"
        else
          String.ofList ((line.toList.zipIdx.filter fun c => chosen c.2).map (·.1)) ++ "\n"
      for (_, text) in contents do
        discard (say (String.join ((splitLines text).1.map one)))
      return if fine then 0 else 1

/-! ## Characters of a kind -/

/-- The characters of a set in which escapes have been replaced; those that were escaped are no
signs. -/
def unescapeSet : Nat → List Char → List Letter
  | 0, _ | _, [] => []
  | n + 1, '\\' :: c :: r =>
    let octal := ((c :: r).take 3).takeWhile fun c => '0' ≤ c && c ≤ '7'
    if !octal.isEmpty then
      ⟨Char.ofNat ((digits 8 0 octal).1 % 256), true⟩ ::
        unescapeSet n ((c :: r).drop octal.length)
    else
      let e := match c with
        | 'n' => '\n'
        | 't' => '\t'
        | 'r' => '\r'
        | 'a' => '\x07'
        | 'b' => '\x08'
        | 'f' => '\x0c'
        | 'v' => '\x0b'
        | c => c
      ⟨e, true⟩ :: unescapeSet n r
  | n + 1, c :: r => ⟨c, false⟩ :: unescapeSet n r

def allBytes : List Char := (List.range 256).map Char.ofNat

/-- The characters of a set in order, with how often the last one may be repeated. -/
def readSet (goal : Nat) : Nat → List Letter → List Char
  | 0, _ | _, [] => []
  | n + 1, ⟨'[', false⟩ :: ⟨':', false⟩ :: r =>
    match className r with
    | some (name, rest) => (allBytes.filter (characterClass name)) ++ readSet goal n rest
    | none => '[' :: ':' :: readSet goal n r
  | n + 1, ⟨'[', false⟩ :: c :: ⟨'*', false⟩ :: r =>
    let count := r.takeWhile fun l => l.char ≠ ']'
    let (times, _) := digits 10 0 (count.map (·.char))
    let rest := readSet goal n (r.drop (count.length + 1))
    let times := if count.isEmpty || times = 0 then goal - rest.length else times
    List.replicate times c.char ++ rest
  | n + 1, low :: ⟨'-', false⟩ :: high :: r =>
    (allBytes.filter fun c => low.char ≤ c && c ≤ high.char) ++ readSet goal n r
  | n + 1, l :: r => l.char :: readSet goal n r

def parseSet (goal : Nat) (text : String) : List Char :=
  readSet goal (text.length + 1) (unescapeSet (text.length + 1) text.toList)

def squeeze (inSet : Char → Bool) : Option Char → List Char → List Char
  | _, [] => []
  | last, c :: r =>
    if last = some c && inSet c then squeeze inSet last r else c :: squeeze inSet (some c) r

def tr : Utility := fun args =>
  withOptions 1 "tr" ⟨"cCdst", "", [("complement", 'c'), ("delete", 'd'),
    ("squeeze-repeats", 's'), ("truncate-set1", 't')]⟩ args fun p => do
  let (first, second) := match p.operands with
    | [a] => (some a, none)
    | [a, b] => (some a, some b)
    | _ => (none, none)
  match first with
  | none => refuse 1 "tr" "missing operand"
  | some first =>
    if second.isNone && !p.has 'd' && !p.has 's' then
      refuse 1 "tr" ("missing operand after '" ++ first ++ "'")
    else if second.isSome && p.has 'd' && !p.has 's' then refuse 1 "tr" "extra operand"
    else
      let set1 := parseSet 0 first
      let complemented := p.has 'c' || p.has 'C'
      let inFirst (c : Char) : Bool := set1.contains c != complemented
      let replaced := if complemented then allBytes.filter inFirst else set1
      let set2 := parseSet replaced.length (second.getD "")
      let text := ((← readAll? 0).getD "").toList
      let result :=
        if p.has 'd' then
          let kept := text.filter fun c => !inFirst c
          if p.has 's' then squeeze set2.contains none kept else kept
        else
          match second with
          | none => squeeze inFirst none text
          | some _ =>
            let last := set2.getLast?
            let table := (if p.has 't' then replaced.take set2.length else replaced).zipIdx
            let change (c : Char) : Char :=
              -- The last of equal characters decides.
              match (table.filter (·.1 = c)).getLast? with
              | some (_, i) => ((set2[i]?).orElse fun _ => last).getD c
              | none => c
            let changes := allBytes.map fun c => (change c)
            let changed := text.map fun c => (changes[c.toNat]?).getD c
            if p.has 's' then squeeze set2.contains none changed else changed
      sayAll "tr" (String.ofList result)

end TableMigration.Shell.Sorting
