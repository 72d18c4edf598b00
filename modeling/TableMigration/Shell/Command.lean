/-!
# Commands of a shell

What a script is made of: words, whose pieces are characters, parameters and what commands print,
and commands, which are put together from simple ones.
-/

namespace TableMigration.Shell

/-- What stands in for a parameter, depending on whether it is set. -/
inductive Choice
  | fallback
  | assignment
  | complaint
  | alternative
  deriving DecidableEq, Repr

/-- Which piece of a parameter is cut away: one at its start or end, the shortest or the longest
that matches. -/
structure Trim where
  atStart : Bool
  longest : Bool
  deriving DecidableEq, Repr

inductive Redirect
  | input
  | truncate
  /-- Truncates even where files are kept. -/
  | overwrite
  | append
  | inputOutput
  | duplicate
  deriving DecidableEq, Repr

mutual

/-- What a word is made of. Parameters in quotes are not split. -/
inductive Glyph
  /-- A character outside quotes. -/
  | bare (c : Char)
  /-- A character that stands for itself. -/
  | literal (c : Char)
  /-- Quotes, which make a field even if nothing is between them. -/
  | quotes
  | parameter (name : String) (quoted : Bool)
  | length (name : String) (quoted : Bool)
  /-- With the colon an empty parameter counts as one that is not set. -/
  | choice (name : String) (quoted : Bool) (kind : Choice) (colon : Bool) (word : List Glyph)
  | trimmed (name : String) (quoted : Bool) (trim : Trim) (pattern : List Glyph)
  /-- Braces whose content means nothing. -/
  | malformed
  | output (command : Option Command) (quoted : Bool)
  | value (expression : List Glyph) (quoted : Bool)

inductive Redirection
  | file (stream : Nat) (kind : Redirect) (target : List Glyph)
  /-- Text that stands in the script, known by its number. -/
  | document (stream : Nat) (number : Nat)

inductive Command
  | simple (line : Nat) (assignments : List (String × List Glyph)) (words : List (List Glyph))
      (redirections : List Redirection)
  | redirected (body : Command) (redirections : List Redirection)
  | subshell (body : Command)
  | pipeline (commands : List Command)
  | negated (body : Command)
  | background (body : Command)
  | sequence (commands : List Command)
  | both (first second : Command)
  | either (first second : Command)
  | conditional (test yes : Command) (no : Option Command)
  /-- Runs its body while its test succeeds, or until it does. -/
  | loop (untilSuccess : Bool) (test body : Command)
  /-- Runs its body for each word, or for each argument if no words are given. -/
  | each (name : String) (words : Option (List (List Glyph))) (body : Command)
  | select (word : List Glyph) (arms : List (List (List Glyph) × Option Command))
  | define (name : String) (body : Command)

end

abbrev Word := List Glyph

instance : Inhabited Command := ⟨.sequence []⟩

def isNameStart (c : Char) : Bool :=
  c.isAlpha || c == '_'

def isNameChar (c : Char) : Bool :=
  isNameStart c || c.isDigit

def isName (s : String) : Bool :=
  s.toList.head?.any isNameStart && s.toList.all isNameChar

def isSpecial (c : Char) : Bool :=
  c == '$' || c == '?' || c == '#' || c == '@' || c == '*' || c == '!' || c == '-'

def bareText? : Word → Option (List Char)
  | [] => some []
  | .bare c :: w => (bareText? w).map (c :: ·)
  | _ => none

def hasQuotes (w : Word) : Bool :=
  w.any fun g => match g with
    | .literal _ | .quotes => true
    | _ => false

def splitAssignment : Word → Option (List Char × Word)
  | .bare '=' :: w => some ([], w)
  | .bare c :: w => (splitAssignment w).map fun r => (c :: r.1, r.2)
  | _ => none

def assignment? (w : Word) : Option (String × Word) :=
  match splitAssignment w with
  | some (name, value) =>
    if isName (String.ofList name) then some (String.ofList name, value) else none
  | none => none

end TableMigration.Shell
