import TableMigration.Shell.Command

/-!
# Reading the words of a script

Between single quotes every character stands for itself, and a backslash does that for one
character. Between double quotes only parameters, what commands print and a few escapes keep their
meaning. Blanks and operators outside quotes end a word, and pieces that touch make one word.
-/

namespace TableMigration.Shell

inductive Sign
  | file (kind : Redirect)
  /-- The text that follows, whose lines may begin with tabs that are dropped. -/
  | document (dropsTabs : Bool)
  deriving DecidableEq, Repr

inductive Token
  | finish
  | newline
  | semicolon
  | doubleSemicolon
  | background
  | and
  | or
  | pipe
  | opening
  | closing
  | word (w : Word)
  | redirect (stream : Nat) (sign : Sign)

/-- A text that follows the line that is being read, up to a line of its own. -/
structure PendingDocument where
  number : Nat
  delimiter : List Char
  dropsTabs : Bool
  /-- Whether parameters keep their meaning in it. -/
  expands : Bool
  deriving DecidableEq, Repr

structure Reader where
  rest : List Char
  line : Nat
  /-- A token that has been read ahead. -/
  ahead : Option Token
  pending : List PendingDocument
  documents : List (Nat × Word)
  nextDocument : Nat
  aliases : List (String × String)
  /-- Aliases whose text is being read, with the length of what follows it. -/
  inUse : List (String × Nat)

abbrev Reading := StateT Reader Option

/-- A line may go on after a backslash at its end. -/
def joinLines : List Char → Nat × List Char
  | '\\' :: '\n' :: r => ((joinLines r).1 + 1, (joinLines r).2)
  | r => (0, r)

def peek : Reading (Option Char) := do
  let r ← get
  let (n, rest) := joinLines r.rest
  set { r with rest, line := r.line + n }
  return rest.head?

def take : Reading (Option Char) :=
  modifyGet fun r =>
    match r.rest with
    | [] => (none, r)
    | c :: rest => (some c, { r with rest, line := if c = '\n' then r.line + 1 else r.line })

def takeIf (c : Char) : Reading Bool := do
  if (← peek) = some c then
    discard take
    return true
  return false

def takeWhile (p : Char → Bool) : Reading (List Char) := do
  go ((← get).rest.length + 1)
where
  go : Nat → Reading (List Char)
    | 0 => return []
    | n + 1 => do
      match ← peek with
      | some c => if p c then discard take; return c :: (← go n) else return []
      | none => return []

/-- How what a word holds of commands is read. -/
structure Nested where
  /-- Up to the parenthesis that closes it. -/
  closed : Reading (Option Command)
  /-- All that is left. -/
  whole : Reading (Option Command)

inductive Enclosure
  | nothing
  | quotes
  | braces
  | document
  /-- An expression in which this many parentheses are open. -/
  | expression (depth : Nat)
  deriving DecidableEq, Repr

structure Surroundings where
  enclosure : Enclosure
  /-- Whether characters stand for themselves. -/
  quoted : Bool
  /-- Whether a dollar sign is a character like others. -/
  plain : Bool
  deriving DecidableEq, Repr

def isBlank (c : Char) : Bool :=
  c == ' ' || c == '\t'

def isOperator (c : Char) : Bool :=
  c == '\n' || c == ';' || c == '&' || c == '|' || c == '<' || c == '>' || c == '(' || c == ')'

namespace Surroundings

def endsAt (s : Surroundings) (c : Char) : Bool :=
  match s.enclosure with
  | .nothing => isBlank c || isOperator c
  | .quotes => c == '"'
  | .braces => c == '}'
  | .document | .expression _ => false

def glyph (s : Surroundings) (c : Char) : Glyph :=
  if s.quoted then .literal c else .bare c

/-- Whether a backslash that stands before a character is dropped. -/
def escapes (s : Surroundings) (c : Char) : Bool :=
  !s.quoted || c == '\\' || c == '`' || c == '$' || (c == '"' && s.enclosure ≠ .document) ||
    (c == '}' && s.enclosure = .braces)

end Surroundings

def singleQuoted : List Char → Option (List Char × List Char)
  | [] => none
  | '\'' :: r => some ([], r)
  | c :: r => (singleQuoted r).map fun (cs, r) => (c :: cs, r)

/-- What is left between backquotes once backslashes have done their work. -/
def backquoted (quoted : Bool) : List Char → Option (List Char × List Char)
  | [] => none
  | '`' :: r => some ([], r)
  | '\\' :: '\n' :: r => backquoted quoted r
  | '\\' :: c :: r =>
    (backquoted quoted r).map fun (cs, r) =>
      if c = '\\' || c = '`' || c = '$' || (quoted && c = '"') then (c :: cs, r)
      else ('\\' :: c :: cs, r)
  | c :: r => (backquoted quoted r).map fun (cs, r) => (c :: cs, r)

/-- Reads a text of its own, and goes on where the reader was. -/
def within {α : Type} (text : List Char) (read : Reading α) : Reading α := do
  let outer ← get
  set { outer with rest := text, pending := [], inUse := [] }
  let a ← read
  modify fun inner => { inner with
    rest := outer.rest, line := outer.line, pending := outer.pending, inUse := outer.inUse }
  return a

section
variable (nested : Nested) (again : Surroundings → Reading Word) (s : Surroundings)

def readEscape : Reading Word := do
  match ← take with
  | none => return [.literal '\\']
  | some c => return if s.escapes c then [.literal c] else [.literal '\\', .literal c]

def readSingleQuoted : Reading Word := do
  let r ← get
  let (cs, rest) ← singleQuoted r.rest
  set { r with rest, line := r.line + cs.count '\n' }
  return .quotes :: cs.map .literal

/-- The arguments of the script in quotes are as many fields as there are arguments, even none. -/
def quotedGlyphs : Word → Word
  | [.parameter "@" true] => [.parameter "@" true]
  | w => .quotes :: w

def readBraced (name : String) : Reading Word := do
  let inner : Surroundings := ⟨.braces, s.quoted, false⟩
  let choice (colon : Bool) (kind : Choice) : Reading Word := do
    discard take
    return [.choice name s.quoted kind colon (← again inner)]
  let trimmed (atStart : Bool) (sign : Char) : Reading Word := do
    discard take
    let longest ← takeIf sign
    return [.trimmed name s.quoted ⟨atStart, longest⟩ (← again ⟨.braces, false, false⟩)]
  let choices (colon : Bool) : Reading Word := do
    match ← peek with
    | some '-' => choice colon .fallback
    | some '=' => choice colon .assignment
    | some '?' => choice colon .complaint
    | some '+' => choice colon .alternative
    | _ =>
      discard (again inner)
      return [.malformed]
  match ← peek with
  | some '}' =>
    discard take
    return [.parameter name s.quoted]
  | some ':' =>
    discard take
    choices true
  | some '#' => trimmed true '#'
  | some '%' => trimmed false '%'
  | _ => choices false

def readMalformed : Reading Word := do
  discard (again ⟨.braces, s.quoted, false⟩)
  return [.malformed]

def readName? : Reading (Option String) := do
  match ← peek with
  | none => return none
  | some c =>
    if isNameStart c then return some (String.ofList (← takeWhile isNameChar))
    else if c.isDigit then return some (String.ofList (← takeWhile Char.isDigit))
    else return none

/-- Reads the length of a parameter, or what begins with the number of arguments. -/
def readLength : Reading Word := do
  match ← readName? with
  | some name =>
    if ← takeIf '}' then return [.length name s.quoted] else readMalformed again s
  | none =>
    let r ← get
    match ← peek with
    | some '}' => readBraced again s "#"
    | some c =>
      discard take
      if (← peek) = some '}' then
        if isSpecial c then
          discard take
          return [.length c.toString s.quoted]
        else
          set r
          readBraced again s "#"
      else
        set r
        readBraced again s "#"
    | none => failure

def readBraces : Reading Word := do
  match ← readName? with
  | some name => readBraced again s name
  | none =>
    match ← peek with
    | some '#' =>
      discard take
      readLength again s
    | some c =>
      if isSpecial c then
        discard take
        readBraced again s c.toString
      else readMalformed again s
    | none => failure

def readDollar : Reading Word := do
  match ← peek with
  | some '(' =>
    discard take
    if ← takeIf '(' then return [.value (← again ⟨.expression 0, true, false⟩) s.quoted]
    else return [.output (← nested.closed) s.quoted]
  | some '{' =>
    discard take
    readBraces again s
  | some c =>
    if isNameStart c then
      return [.parameter (String.ofList (← takeWhile isNameChar)) s.quoted]
    else if c.isDigit || isSpecial c then
      discard take
      return [.parameter c.toString s.quoted]
    else return [s.glyph '$']
  | none => return [s.glyph '$']

def readBackquoted : Reading Word := do
  let r ← get
  let (text, rest) ← backquoted s.quoted r.rest
  set { r with rest }
  return [.output (← within text nested.whole) s.quoted]

def readGlyph (c : Char) : Reading Word :=
  match c with
  | '\\' => readEscape s
  | '\'' => if s.quoted then return [.literal c] else readSingleQuoted
  | '"' =>
    if s.quoted then
      if s.enclosure = .braces then again ⟨.quotes, true, false⟩ else return [.literal c]
    else return quotedGlyphs (← again ⟨.quotes, true, s.plain⟩)
  | '$' => if s.plain then return [s.glyph c] else readDollar nested again s
  | '`' => if s.plain then return [s.glyph c] else readBackquoted nested s
  | _ => return [s.glyph c]

end

def readWord (nested : Nested) : Nat → Surroundings → Reading Word
  | 0, _ => failure
  | n + 1, s => do
    match ← peek with
    | none => if s.enclosure = .nothing || s.enclosure = .document then return [] else failure
    | some c =>
      if s.endsAt c then
        if s.enclosure ≠ .nothing then discard take
        return []
      discard take
      match s.enclosure, c with
      | .expression depth, '(' =>
        return .literal c :: (← readWord nested n { s with enclosure := .expression (depth + 1) })
      | .expression (depth + 1), ')' =>
        return .literal c :: (← readWord nested n { s with enclosure := .expression depth })
      | .expression 0, ')' =>
        if ← takeIf ')' then return []
        return .literal c :: (← readWord nested n s)
      | _, _ =>
        let here ← readGlyph nested (readWord nested n) s c
        return here ++ (← readWord nested n s)

/-! ## Texts that follow a line -/

/-- Whether a line goes on: it ends in a backslash that no other one escapes. -/
def goesOn (line : List Char) : Bool :=
  (line.reverse.takeWhile (· = '\\')).length % 2 = 1

def documentLines (d : PendingDocument) : Nat → Bool → List Char → List Char × List Char
  | 0, _, cs => ([], cs)
  | n + 1, continues, cs =>
    if cs = [] then ([], [])
    else
      let line := cs.takeWhile (· ≠ '\n')
      let rest := cs.drop line.length
      let line := if d.dropsTabs && !continues then line.dropWhile (· = '\t') else line
      if line = d.delimiter && !continues then ([], rest.drop 1)
      else
        let (more, after) := documentLines d n (d.expands && goesOn line) (rest.drop 1)
        (line ++ rest.take 1 ++ more, after)

def readDocuments (nested : Nested) : Reading Unit := do
  let pending := (← get).pending
  modify fun r => { r with pending := [] }
  for d in pending do
    let r ← get
    let (text, rest) := documentLines d (r.rest.length + 1) false r.rest
    set { r with rest, line := r.line + (r.rest.count '\n' - rest.count '\n') }
    let word ←
      if d.expands then within text (readWord nested (text.length + 1) ⟨.document, true, false⟩)
      else pure (text.map .literal)
    modify fun r => { r with documents := (d.number, word) :: r.documents }

/-! ## Tokens -/

def skipBlanks : Reading Unit := do
  discard (takeWhile isBlank)
  if (← peek) = some '#' then
    modify fun r => { r with rest := r.rest.dropWhile (· ≠ '\n') }

def readOutputSign : Reading Sign := do
  if ← takeIf '>' then return .file .append
  if ← takeIf '|' then return .file .overwrite
  if ← takeIf '&' then return .file .duplicate
  return .file .truncate

def readInputSign : Reading Sign := do
  if ← takeIf '<' then return .document (← takeIf '-')
  if ← takeIf '&' then return .file .duplicate
  if ← takeIf '>' then return .file .inputOutput
  return .file .input

/-- A redirection takes a digit just before it as its stream. -/
def readRedirect (stream : Option Nat) : Reading Token := do
  if ← takeIf '>' then return .redirect (stream.getD 1) (← readOutputSign)
  discard take
  return .redirect (stream.getD 0) (← readInputSign)

/-- The next token; in a plain one a dollar sign is a character like others. -/
def readToken (nested : Nested) (plain : Bool) : Reading Token := do
  skipBlanks
  let double (c : Char) (one two : Token) : Reading Token := do
    discard take
    return if ← takeIf c then two else one
  match ← peek with
  | none =>
    readDocuments nested
    return .finish
  | some '\n' =>
    discard take
    readDocuments nested
    return .newline
  | some ';' => double ';' .semicolon .doubleSemicolon
  | some '&' => double '&' .background .and
  | some '|' => double '|' .pipe .or
  | some '(' =>
    discard take
    return .opening
  | some ')' =>
    discard take
    return .closing
  | some '<' | some '>' => readRedirect none
  | some _ =>
    let w ← readWord nested ((← get).rest.length + 1) ⟨.nothing, false, plain⟩
    let next ← peek
    match w with
    | [.bare c] =>
      if c.isDigit && (next = some '<' || next = some '>') then
        readRedirect (some (c.toNat - '0'.toNat))
      else return .word w
    | _ => return .word w

def nextToken (nested : Nested) (plain : Bool) : Reading Token := do
  match (← get).ahead with
  | some t =>
    modify fun r => { r with ahead := none }
    return t
  | none => readToken nested plain

def putBack (t : Token) : Reading Unit :=
  modify fun r => { r with ahead := some t }

end TableMigration.Shell
