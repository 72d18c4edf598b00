import TableMigration.Shell.Utility.Basic
import TableMigration.Shell.Utility.Regex

/-!
# Programs that search

Lines that match a pattern, and expressions over texts.
-/

namespace TableMigration.Shell.Search

def grepTable : OptionTable :=
  ⟨"EFGPivclLnoqswxhHrRaUyz", "efmABCd", [("extended-regexp", 'E'), ("fixed-strings", 'F'),
    ("ignore-case", 'i'), ("invert-match", 'v'), ("count", 'c'), ("files-with-matches", 'l'),
    ("files-without-match", 'L'), ("line-number", 'n'), ("only-matching", 'o'), ("quiet", 'q'),
    ("silent", 'q'), ("no-messages", 's'), ("word-regexp", 'w'), ("line-regexp", 'x'),
    ("no-filename", 'h'), ("with-filename", 'H'), ("recursive", 'r'), ("regexp", 'e'),
    ("file", 'f'), ("max-count", 'm'), ("basic-regexp", 'G'), ("text", 'a'),
    ("after-context", 'A'), ("before-context", 'B'), ("context", 'C'), ("perl-regexp", 'P')]⟩

def allMatches (r : Regex) (line : List Char) : Nat → Nat → List (List Char)
  | 0, _ => []
  | n + 1, start =>
    match r.match? line start with
    | none => []
    | some m =>
      let stop := m.before.length + m.text.length
      if m.text.isEmpty then
        if line.length < stop + 1 then [] else allMatches r line n (stop + 1)
      else m.text :: allMatches r line n stop

def filesBelow (disk : Disk) : Nat → String → List String
  | 0, _ => []
  | n + 1, path =>
    match disk.locate (pathOf path) with
    | .found names =>
      if disk.find? names = some .directory then
        (disk.namesBelow names).flatMap fun name => filesBelow disk n (path ++ "/" ++ ofRaw name)
      else [path]
    | _ => [path]

/-- The lines to be shown, each with whether it was selected, among those near a selected one. -/
def withContext (before after : Nat) (selected : List Bool) : List Bool :=
  selected.zipIdx.map fun (_, i) =>
    (selected.zipIdx.any fun (s, j) => s && i ≤ j + after && j ≤ i + before)

def grep (extended fixed : Bool) : Utility := fun args =>
  withOptions 2 "grep" grepTable args fun p => do
  let given := p.options.filter fun o => o.1 = 'e' || o.1 = 'f'
  let (patterns, paths) := match given, p.operands with
    | [], pattern :: paths => (some [('e', pattern)], paths)
    | [], [] => (none, [])
    | given, paths => (some given, paths)
  match patterns with
  | none => refuse 2 "grep" "no pattern"
  | some patterns =>
    let mut lines := []
    for (c, text) in patterns do
      if c = 'e' then lines := lines ++ text.splitOn "\n"
      else
        match ← readFile? text with
        | some content => lines := lines ++ (splitLines content).1
        | none => return ← refuse 2 "grep" (text ++ ": No such file or directory")
    let style : Regex.Style :=
      ⟨extended || p.has 'E' || p.has 'P', p.has 'i' || p.has 'y', false⟩
    let literal := (fixed || p.has 'F') && !p.has 'E' && !p.has 'G'
    let regexes := lines.mapM fun l =>
      if literal then some (Regex.literal style l.toList) else Regex.parse? style l.toList
    match regexes with
    | none => refuse 2 "grep" "Invalid regular expression"
    | some regexes =>
      let whole (r : Regex) : Regex :=
        if p.has 'x' then r.whole else if p.has 'w' then r.words else r
      let regexes := regexes.map whole
      let recursive := p.has 'r' || p.has 'R'
      let paths :=
        if paths.isEmpty then if recursive then ["."] else ["-"] else paths
      let disk := (← get).disk
      let paths := if recursive then paths.flatMap (filesBelow disk 40) else paths
      let titled := !p.has 'h' && (p.has 'H' || recursive || 1 < paths.length)
      let most := (p.value? 'm').bind readSize?
      let context (c : Char) : Nat :=
        (((p.value? c).orElse fun _ => p.value? 'C').bind readSize?).getD 0
      let mut found := false
      let mut fault := false
      for path in paths do
        let title := if path = "-" then "(standard input)" else path
        let content ← if path = "-" || (← entry? path) ≠ some .directory then readFile? path
          else pure none
        match content with
        | none =>
          unless p.has 's' do grumble "grep" (path ++ ": " ++ (← readingFault path))
          fault := true
        | some text =>
          let rows := (splitLines text).1
          let selected := rows.map fun l =>
            (regexes.any fun r => r.matchesIn l.toList) != p.has 'v'
          -- Lines after the last one that is wanted do not count.
          let selected := match most with
            | none => selected
            | some n => (selected.foldl (fun (left, done) s =>
                if s && left = 0 then (left, done ++ [false])
                else (left - (if s then 1 else 0), done ++ [s])) (n, [])).2
          let count := (selected.filter id).length
          if 0 < count then found := true
          let mark (sep : String) : String := if titled then title ++ sep else ""
          if p.has 'q' then
            if 0 < count then return 0
          else if p.has 'c' then discard (say (mark ":" ++ toString count ++ "\n"))
          else if p.has 'l' then
            if 0 < count then discard (say (title ++ "\n"))
          else if p.has 'L' then
            if count = 0 then discard (say (title ++ "\n"))
          else if p.has 'o' then
            if !p.has 'v' then
              for (l, i) in rows.zipIdx do
                if (selected[i]?).getD false then
                  for r in regexes do
                    for m in allMatches r l.toList (l.length + 2) 0 do
                      let number := if p.has 'n' then toString (i + 1) ++ ":" else ""
                      discard (say (mark ":" ++ number ++ String.ofList m ++ "\n"))
          else
            let shown := withContext (context 'B') (context 'A') selected
            let hasContext := 0 < context 'A' + context 'B'
            let mut last := 0
            for (l, i) in rows.zipIdx do
              if (shown[i]?).getD false then
                if hasContext && 0 < last && last < i then discard (say "--\n")
                last := i + 1
                let sep := if (selected[i]?).getD false then ":" else "-"
                let number := if p.has 'n' then toString (i + 1) ++ sep else ""
                discard (say (mark sep ++ number ++ l ++ "\n"))
      return if fault then 2 else if found then 0 else 1

/-! ## Expressions over texts -/

abbrev Value := String

def integer? (v : Value) : Option Int :=
  let (negative, cs) := match v.toList with
    | '-' :: r => (true, r)
    | r => (false, r)
  if cs.isEmpty || !cs.all Char.isDigit then none
  else
    let n : Int := (digits 10 0 cs).1
    some (if negative then -n else n)

/-- Whether a value counts as nothing: it is empty, or zero. -/
def isNothing (v : Value) : Bool :=
  v = "" || integer? v = some 0

/-- What a text matches at its start: the group, or how long the match is. -/
def matchStart (text pattern : Value) : Option Value :=
  let style : Regex.Style := ⟨false, false, false⟩
  (Regex.parse? style pattern.toList).map fun r =>
    let grouped := (pattern.splitOn "\\(").length > 1
    match (Regex.both .lineStart r).match? text.toList 0 with
    | some m =>
      if grouped then String.ofList ((m.groups.lookup 1).getD []) else toString m.text.length
    | none => if grouped then "" else "0"

inductive ExprFault
  | malformed
  | notNumber
  | divisionByZero
  deriving DecidableEq, Repr

def operatorLevel (s : String) : Nat :=
  match s with
  | "|" => 1
  | "&" => 2
  | "<" | "<=" | "=" | "==" | "!=" | ">=" | ">" => 3
  | "+" | "-" => 4
  | "*" | "/" | "%" => 5
  | ":" => 6
  | _ => 0

def applyOperator (s : String) (a b : Value) : Except ExprFault Value :=
  let numbers (f : Int → Int → Except ExprFault Int) : Except ExprFault Value :=
    match integer? a, integer? b with
    | some m, some n => toString <$> f m n
    | _, _ => .error .notNumber
  let compared (o : Ordering → Bool) : Except ExprFault Value :=
    let r := match integer? a, integer? b with
      | some m, some n => compare m n
      | _, _ => compare a b
    .ok (if o r then "1" else "0")
  match s with
  | "|" => .ok (if !isNothing a then a else if !isNothing b then b else "0")
  | "&" => .ok (if isNothing a || isNothing b then "0" else a)
  | "<" => compared (· == .lt)
  | "<=" => compared (· != .gt)
  | "=" | "==" => compared (· == .eq)
  | "!=" => compared (· != .eq)
  | ">=" => compared (· != .lt)
  | ">" => compared (· == .gt)
  | "+" => numbers fun m n => .ok (m + n)
  | "-" => numbers fun m n => .ok (m - n)
  | "*" => numbers fun m n => .ok (m * n)
  | "/" => numbers fun m n => if n = 0 then .error .divisionByZero else .ok (m.tdiv n)
  | "%" => numbers fun m n => if n = 0 then .error .divisionByZero else .ok (m.tmod n)
  | ":" => match matchStart a b with
    | some v => .ok v
    | none => .error .malformed
  | _ => .error .malformed

abbrev ExprReader := List String → Except ExprFault (Value × List String)

def readOperators (operand : Nat → ExprReader) (least : Nat) : Nat → Value → ExprReader
  | 0, _, _ => .error .malformed
  | n + 1, a, ws =>
    match ws with
    | op :: rest =>
      let level := operatorLevel op
      if level = 0 || level < least then .ok (a, ws)
      else do
        let (b, rest) ← operand (level + 1) rest
        readOperators operand least n (← applyOperator op a b) rest
    | [] => .ok (a, ws)

def readExpr : Nat → Nat → ExprReader
  | 0, _, _ => .error .malformed
  | n + 1, least, ws => do
    let (a, rest) ← match ws with
      | "(" :: rest => do
        let (a, rest) ← readExpr n 0 rest
        match rest with
        | ")" :: rest => pure (a, rest)
        | _ => throw .malformed
      | "length" :: text :: rest => pure (toString text.length, rest)
      | "match" :: text :: pattern :: rest =>
        match matchStart text pattern with
        | some v => pure (v, rest)
        | none => throw .malformed
      | "substr" :: text :: start :: length :: rest =>
        match integer? start, integer? length with
        | some s, some l =>
          if s ≤ 0 || l ≤ 0 then pure ("", rest)
          else
            pure (String.ofList ((text.toList.drop (s.toNat - 1)).take l.toNat), rest)
        | _, _ => pure ("", rest)
      | "index" :: text :: chars :: rest =>
        let i := text.toList.findIdx fun c => chars.toList.contains c
        pure (toString (if i < text.length then i + 1 else 0), rest)
      | "+" :: word :: rest => pure (word, rest)
      | word :: rest => pure (word, rest)
      | [] => throw .malformed
    readOperators (readExpr n) least (rest.length + 1) a rest

def expr : Utility := fun args => do
  let args := match args with
    | "--" :: rest => rest
    | args => args
  match readExpr (2 * args.length + 2) 0 args with
  | .ok (v, []) =>
    discard (say (v ++ "\n"))
    return if isNothing v then 1 else 0
  | .ok (_, _) | .error .malformed => refuse 2 "expr" "syntax error"
  | .error .notNumber => refuse 2 "expr" "non-integer argument"
  | .error .divisionByZero => refuse 2 "expr" "division by zero"

end TableMigration.Shell.Search
