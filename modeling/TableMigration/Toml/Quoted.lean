import TableMigration.Toml.Scalar

/-!
# TOML strings

Basic strings, with escapes, and literal strings, each on one line or over several.
-/

namespace TableMigration.Toml

def isPlain (c : Char) : Bool :=
  c = '\t' || (0x20 ≤ c.toNat && c ≠ '\x7f')

def readCode (n : Nat) (cs : List Char) : Option (Char × List Char) :=
  let digits := cs.take n
  let code := valueIn 16 digits
  if digits.length = n && digits.all isHexDigit && code.isValidChar then
    some (Char.ofNat code, cs.drop n)
  else none

def readEscape : List Char → Option (Char × List Char)
  | [] => none
  | c :: cs =>
    match c with
    | 'b' => some ('\x08', cs)
    | 't' => some ('\t', cs)
    | 'n' => some ('\n', cs)
    | 'f' => some ('\x0c', cs)
    | 'r' => some ('\r', cs)
    | 'e' => some ('\x1b', cs)
    | '"' => some ('"', cs)
    | '\\' => some ('\\', cs)
    | 'x' => readCode 2 cs
    | 'u' => readCode 4 cs
    | 'U' => readCode 8 cs
    | _ => none

def readLineString (quote : Char) : Nat → List Char → Option (List Char × List Char)
  | 0, _ | _, [] => none
  | fuel + 1, c :: cs =>
    if c = quote then some ([], cs)
    else if c = '\\' && quote = '"' then do
      let (c, cs) ← readEscape cs
      let (text, cs) ← readLineString quote fuel cs
      return (c :: text, cs)
    else if isPlain c then do
      let (text, cs) ← readLineString quote fuel cs
      return (c :: text, cs)
    else none

def readNewline? : List Char → Option (List Char × List Char)
  | '\n' :: cs => some (['\n'], cs)
  | '\r' :: '\n' :: cs => some (['\r', '\n'], cs)
  | _ => none

def dropNewline? (cs : List Char) : Option (List Char) :=
  (readNewline? cs).map (·.2)

def isInlineBlank (c : Char) : Bool :=
  c = ' ' || c = '\t'

def skipBlankLines : Nat → List Char → List Char
  | 0, cs => cs
  | fuel + 1, cs =>
    let cs := cs.dropWhile isInlineBlank
    match dropNewline? cs with
    | some cs => skipBlankLines fuel cs
    | none => cs

/-- The rest of a string in tripled `quote`s, with its line ends as they are. Up to two more quotes
may stand before the closing ones, and a backslash at the end of a line takes away all blank space
up to the next text. -/
def readBlockString (quote : Char) : Nat → List Char → Option (List Char × List Char)
  | 0, _ | _, [] => none
  | fuel + 1, c :: cs =>
    if c = quote then
      let more := cs.takeWhile (· = quote)
      if 2 ≤ more.length then
        if more.length ≤ 4 then some (more.drop 2, cs.drop more.length) else none
      else do
        let (text, cs) ← readBlockString quote fuel cs
        return (c :: text, cs)
    else if c = '\\' && quote = '"' then
      match dropNewline? (cs.dropWhile isInlineBlank) with
      | some cs => readBlockString quote fuel (skipBlankLines fuel cs)
      | none => do
        let (c, cs) ← readEscape cs
        let (text, cs) ← readBlockString quote fuel cs
        return (c :: text, cs)
    else
      match readNewline? (c :: cs) with
      | some (newline, cs) => do
        let (text, cs) ← readBlockString quote fuel cs
        return (newline ++ text, cs)
      | none =>
        if isPlain c then do
          let (text, cs) ← readBlockString quote fuel cs
          return (c :: text, cs)
        else none

def readString (quote : Char) (cs : List Char) : Option (String × List Char) :=
  match cs with
  | a :: b :: rest =>
    if a = quote && b = quote then
      let rest := (dropNewline? rest).getD rest
      (readBlockString quote (rest.length + 1) rest).map fun r => (String.ofList r.1, r.2)
    else (readLineString quote (cs.length + 1) cs).map fun r => (String.ofList r.1, r.2)
  | _ => (readLineString quote (cs.length + 1) cs).map fun r => (String.ofList r.1, r.2)

end TableMigration.Toml
