import TableMigration.Toml.Quoted

/-!
# Reading a TOML document

A document is a sequence of lines: blank ones, comments, headers, and keys with their values.
`Document.read?` gives its top table, or nothing if the text is no document.
-/

namespace TableMigration.Toml

def skipBlanks (cs : List Char) : List Char :=
  cs.dropWhile isInlineBlank

def skipComment : List Char → List Char
  | '#' :: cs => cs.dropWhile isPlain
  | cs => cs

def skipSpace : Nat → List Char → List Char
  | 0, cs => cs
  | fuel + 1, cs =>
    match dropNewline? (skipComment (skipBlanks cs)) with
    | some cs => skipSpace fuel cs
    | none => skipComment (skipBlanks cs)

def isKeyChar (c : Char) : Bool :=
  c.isAlphanum || c = '_' || c = '-'

def readSimpleKey : List Char → Option (String × List Char)
  | '"' :: cs => (readLineString '"' (cs.length + 1) cs).map fun r => (String.ofList r.1, r.2)
  | '\'' :: cs => (readLineString '\'' (cs.length + 1) cs).map fun r => (String.ofList r.1, r.2)
  | cs =>
    let key := cs.takeWhile isKeyChar
    if key.isEmpty then none else some (String.ofList key, cs.dropWhile isKeyChar)

/-- How many names a key may have, and how many arrays and inline tables may stand inside one
another. -/
def nestingLimit : Nat := 80

def readNames : Nat → List Char → Option (List String × String × List Char)
  | 0, _ => none
  | names + 1, cs => do
    let (key, cs) ← readSimpleKey (skipBlanks cs)
    match skipBlanks cs with
    | '.' :: cs =>
      let (path, last, cs) ← readNames names cs
      return (key :: path, last, cs)
    | cs => return ([], key, cs)

def readKey (cs : List Char) : Option (List String × String × List Char) :=
  readNames nestingLimit cs

mutual

def readValue : Nat → Nat → List Char → Option (Item × List Char)
  | 0, _, _ => none
  | fuel + 1, depth, cs =>
    match cs, depth with
    | '"' :: cs, _ => (readString '"' cs).map fun r => (.text r.1, r.2)
    | '\'' :: cs, _ => (readString '\'' cs).map fun r => (.text r.1, r.2)
    | '[' :: _, 0 | '{' :: _, 0 => none
    | '[' :: cs, depth + 1 => (readItems fuel depth cs).map fun r => (.array r.1, r.2)
    | '{' :: cs, depth + 1 => (readEntries fuel depth [] cs).map fun r => (.inlineTable r.1, r.2)
    | cs, _ => readScalar cs

def readItems : Nat → Nat → List Char → Option (List Item × List Char)
  | 0, _, _ => none
  | fuel + 1, depth, cs =>
    match skipSpace cs.length cs with
    | ']' :: cs => some ([], cs)
    | cs => do
      let (item, cs) ← readValue fuel depth cs
      match skipSpace cs.length cs with
      | ',' :: cs =>
        let (items, cs) ← readItems fuel depth cs
        return (item :: items, cs)
      | ']' :: cs => return ([item], cs)
      | _ => none

/-- The entries of an inline table up to its end, `entries` being those before. All but a key may
go on over line ends and comments. -/
def readEntries : Nat → Nat → Entries → List Char → Option (Entries × List Char)
  | 0, _, _, _ => none
  | fuel + 1, depth, entries, cs =>
    match skipSpace cs.length cs with
    | '}' :: cs => some (entries, cs)
    | cs => do
      let (path, key, cs) ← readKey cs
      let '=' :: cs := skipSpace cs.length cs | none
      let (item, cs) ← readValue fuel depth (skipSpace cs.length cs)
      let entries ← addAt key item path entries
      match skipSpace cs.length cs with
      | ',' :: cs => readEntries fuel depth entries cs
      | '}' :: cs => return (entries, cs)
      | _ => none

end

/-- A document as read so far, and the path of the header that is in force. -/
structure Document where
  top : Entries
  header : List String

namespace Document

def readEntry (doc : Document) (cs : List Char) : Option (Document × List Char) := do
  let (path, key, cs) ← readKey cs
  let '=' :: cs := cs | none
  let cs := skipBlanks cs
  let (item, cs) ← readValue (2 * cs.length + 2) nestingLimit cs
  let top ← within (addAt key item path) doc.header doc.top
  return ({ doc with top }, cs)

def readHeader (doc : Document) (cs : List Char) : Option (Document × List Char) := do
  match cs with
  | '[' :: cs =>
    let (path, key, cs) ← readKey cs
    let ']' :: ']' :: cs := cs | none
    let top ← within (openElement key) path doc.top
    return (⟨top, path ++ [key]⟩, cs)
  | cs =>
    let (path, key, cs) ← readKey cs
    let ']' :: cs := cs | none
    let top ← within (openTable key) path doc.top
    return (⟨top, path ++ [key]⟩, cs)

def readLine (doc : Document) (cs : List Char) : Option (Document × List Char) :=
  match skipBlanks cs with
  | [] => some (doc, [])
  | '[' :: cs => doc.readHeader cs
  | c :: cs =>
    if c = '#' || c = '\n' || c = '\r' then some (doc, c :: cs) else doc.readEntry (c :: cs)

def readLines (doc : Document) : Nat → List Char → Option Document
  | 0, _ => none
  | fuel + 1, cs =>
    match doc.readLine cs with
    | none => none
    | some (doc, cs) =>
      match skipComment (skipBlanks cs) with
      | [] => some doc
      | cs =>
        match dropNewline? cs with
        | some cs => readLines doc fuel cs
        | none => none

def read? (text : String) : Option Entries :=
  let cs := match text.toList with
    | '\uFEFF' :: cs => cs
    | cs => cs
  (readLines ⟨[], []⟩ (cs.length + 1) cs).map (·.top)

end Document

end TableMigration.Toml
