import TableMigration.Shell.Arithmetic
import TableMigration.Shell.Pattern

/-!
# Regular expressions

Basic and extended ones. The leftmost match counts, and each part takes as much as it can; of
alternatives the one with the longest match is taken.
-/

namespace TableMigration.Shell

inductive Regex
  | empty
  | one (test : Char → Bool)
  | lineStart
  | lineEnd
  | wordStart
  | wordEnd
  /-- The edge of a word, or a place that is no edge. -/
  | edge (isEdge : Bool)
  /-- A place that no character of a word touches from before or after. -/
  | apart (fromBefore : Bool)
  | both (a b : Regex)
  | either (a b : Regex)
  | repeated (r : Regex) (least : Nat) (most : Option Nat)
  | group (number : Nat) (r : Regex)
  /-- The text that a group matched. -/
  | again (number : Nat)

namespace Regex

/-! ## Matching -/

/-- A place in a text: the character before it, what follows, and how much came before. -/
structure Spot where
  before : Option Char
  rest : List Char
  position : Nat
  deriving DecidableEq, Repr

/-- What groups matched, the last match of a group first. -/
abbrev Groups := List (Nat × List Char)

structure Found where
  stop : Nat
  groups : Groups
  deriving DecidableEq, Repr

abbrev Goal := Spot → Groups → Option Found

def isWordChar (c : Char) : Bool :=
  c.isAlphanum || c == '_'

def Spot.step? (s : Spot) : Option (Char × Spot) :=
  match s.rest with
  | [] => none
  | c :: r => some (c, ⟨some c, r, s.position + 1⟩)

def Spot.advance (s : Spot) : Nat → Spot
  | 0 => s
  | n + 1 => match s.step? with
    | some (_, s) => s.advance n
    | none => s

def Spot.afterWord (s : Spot) : Bool :=
  s.before.any isWordChar

def Spot.beforeWord (s : Spot) : Bool :=
  s.rest.head?.any isWordChar

/-- Repeats a step as often as it can be done, and goes on from there or from fewer. -/
def repeatStep (step : Spot → Groups → Goal → Option Found) (goal : Goal) :
    Nat → Nat → Option Nat → Spot → Groups → Option Found
  | 0, _, _, _, _ => none
  | n + 1, least, most, s, groups =>
    let more :=
      if most = some 0 then none
      else
        step s groups fun s' groups' =>
          if s'.position = s.position && least = 0 then none
          else repeatStep step goal n (least - 1) (most.map (· - 1)) s' groups'
    match more with
    | some found => some found
    | none => if least = 0 then goal s groups else none

def find : Regex → Spot → Groups → Goal → Option Found
  | .empty, s, groups, goal => goal s groups
  | .one test, s, groups, goal =>
    match s.step? with
    | some (c, s) => if test c then goal s groups else none
    | none => none
  | .lineStart, s, groups, goal => if s.position = 0 then goal s groups else none
  | .lineEnd, s, groups, goal => if s.rest.isEmpty then goal s groups else none
  | .wordStart, s, groups, goal =>
    if !s.afterWord && s.beforeWord then goal s groups else none
  | .wordEnd, s, groups, goal => if s.afterWord && !s.beforeWord then goal s groups else none
  | .edge isEdge, s, groups, goal =>
    if (s.afterWord != s.beforeWord) == isEdge then goal s groups else none
  | .apart fromBefore, s, groups, goal =>
    if if fromBefore then s.afterWord else s.beforeWord then none else goal s groups
  | .both a b, s, groups, goal => a.find s groups fun s groups => b.find s groups goal
  | .either a b, s, groups, goal =>
    match a.find s groups goal, b.find s groups goal with
    | some x, some y => if x.stop < y.stop then some y else some x
    | some x, none => some x
    | none, y => y
  | .repeated r least most, s, groups, goal =>
    repeatStep r.find goal (s.rest.length + least + 2) least most s groups
  | .group number r, s, groups, goal =>
    r.find s groups fun s' groups =>
      goal s' ((number, s.rest.take (s'.position - s.position)) :: groups)
  | .again number, s, groups, goal =>
    match groups.lookup number with
    | none => none
    | some text =>
      if text.isPrefixOf s.rest then goal (s.advance text.length) groups else none

/-- A match in a text: what comes before, the text matched, its groups and what follows. -/
structure Match where
  before : List Char
  text : List Char
  groups : Groups
  after : List Char
  deriving DecidableEq, Repr

def search (r : Regex) : Nat → Spot → Option (Nat × Found)
  | 0, _ => none
  | n + 1, s =>
    match r.find s [] fun s groups => some ⟨s.position, groups⟩ with
    | some found => some (s.position, found)
    | none =>
      match s.step? with
      | some (_, s) => r.search n s
      | none => none

def match? (r : Regex) (text : List Char) (start : Nat) : Option Match :=
  let spot := Spot.advance ⟨none, text, 0⟩ start
  (r.search (text.length + 2) spot).map fun (first, found) =>
    ⟨text.take first, (text.drop first).take (found.stop - first), found.groups,
      text.drop found.stop⟩

def matchesIn (r : Regex) (text : List Char) : Bool :=
  (r.match? text 0).isSome

def whole (r : Regex) : Regex :=
  .both .lineStart (.both r .lineEnd)

def words (r : Regex) : Regex :=
  .both (.apart true) (.both r (.apart false))

/-! ## Reading -/

structure Style where
  extended : Bool
  ignoresCase : Bool
  /-- Whether letters after a backslash may name characters such as a line end. -/
  escapes : Bool
  deriving DecidableEq, Repr

/-- What is left to read, and how many groups there have been. -/
structure Source where
  rest : List Char
  groups : Nat
  deriving DecidableEq, Repr

def swapCase (c : Char) : Char :=
  if c.isUpper then c.toLower else c.toUpper

def Style.test (style : Style) (test : Char → Bool) : Regex :=
  .one (if style.ignoresCase then fun c => test c || test (swapCase c) else test)

def Style.char (style : Style) (c : Char) : Regex :=
  style.test (· == c)

def literal (style : Style) (text : List Char) : Regex :=
  text.foldr (fun c r => .both (style.char c) r) .empty

def readBrackets (style : Style) (src : Source) : Option (Regex × Source) :=
  let negated := src.rest.head? = some '^'
  let inner := if negated then src.rest.drop 1 else src.rest
  let letters := inner.map fun c => (⟨c, false⟩ : Letter)
  (bracketTests (letters.length + 1) true letters).map fun (tests, rest) =>
    let inSet (c : Char) : Bool := tests.any fun test => test c
    let inSet (c : Char) : Bool :=
      if style.ignoresCase then inSet c || inSet (swapCase c) else inSet c
    (.one (fun c => inSet c != negated), { src with rest := rest.map (·.char) })

def readBounds (style : Style) (src : Source) : Option (Nat × Option Nat × Source) :=
  let (low, r) := digits 10 0 src.rest
  let bounds := match r with
    | ',' :: r' =>
      let (high, r'') := digits 10 0 r'
      (low, if r''.length = r'.length then none else some high, r'')
    | r => (low, some low, r)
  match bounds, style.extended with
  | (low, high, '}' :: r), true => some (low, high, { src with rest := r })
  | (low, high, '\\' :: '}' :: r), false => some (low, high, { src with rest := r })
  | _, _ => none

def escaped (c : Char) : Option Regex :=
  match c with
  | 'w' => some (.one isWordChar)
  | 'W' => some (.one fun c => !isWordChar c)
  | 's' => some (.one isSpace)
  | 'S' => some (.one fun c => !isSpace c)
  | 'b' => some (.edge true)
  | 'B' => some (.edge false)
  | '<' => some .wordStart
  | '>' => some .wordEnd
  | '`' => some .lineStart
  | '\'' => some .lineEnd
  | _ => if c.isDigit && c ≠ '0' then some (.again (c.toNat - '0'.toNat)) else none

/-- Reads what may be repeated, and says whether a star after it is a sign. -/
def readAtom (style : Style) (again : Source → Option (Regex × Source)) (first : Bool)
    (src : Source) : Option (Regex × Bool × Source) :=
  let group (r : List Char) : Option (Regex × Bool × Source) :=
    match again ⟨r, src.groups + 1⟩ with
    | some (inner, after) =>
      let rest := match after.rest, style.extended with
        | ')' :: r, true => some r
        | '\\' :: ')' :: r, false => some r
        | _, _ => none
      rest.map fun r => (.group (src.groups + 1) inner, true, { after with rest := r })
    | none => none
  match src.rest with
  | [] => none
  | '.' :: r => some (.one fun _ => true, true, { src with rest := r })
  | '[' :: r => (readBrackets style { src with rest := r }).map fun (x, src) => (x, true, src)
  | '^' :: r =>
    if style.extended || first then some (.lineStart, style.extended, { src with rest := r })
    else some (style.char '^', true, { src with rest := r })
  | '$' :: r =>
    let ends := match r, style.extended with
      | [], _ => true
      | '\\' :: ')' :: _, false | '\\' :: '|' :: _, false => true
      | _, extended => extended
    if ends then some (.lineEnd, style.extended, { src with rest := r })
    else some (style.char '$', true, { src with rest := r })
  | '\\' :: c :: r =>
    if c = '(' && !style.extended then group r
    else
      match escaped c with
      | some x => some (x, true, { src with rest := r })
      | none => some (style.char c, true, { src with rest := r })
  | '(' :: r =>
    if style.extended then group r else some (style.char '(', true, { src with rest := r })
  | c :: r => some (style.char c, true, { src with rest := r })

def readRepeats (style : Style) : Nat → Regex → Source → Option (Regex × Source)
  | 0, _, _ => none
  | n + 1, x, src =>
    let next (least : Nat) (most : Option Nat) (r : List Char) : Option (Regex × Source) :=
      readRepeats style n (.repeated x least most) { src with rest := r }
    match src.rest, style.extended with
    | '*' :: r, _ => next 0 none r
    | '+' :: r, true | '\\' :: '+' :: r, false => next 1 none r
    | '?' :: r, true | '\\' :: '?' :: r, false => next 0 (some 1) r
    | '{' :: r, true =>
      match readBounds style { src with rest := r } with
      | some (least, most, src) => readRepeats style n (.repeated x least most) src
      | none => some (x, src)
    | '\\' :: '{' :: r, false =>
      match readBounds style { src with rest := r } with
      | some (least, most, src) => readRepeats style n (.repeated x least most) src
      | none => none
    | _, _ => some (x, src)

def endsBranch (style : Style) (r : List Char) : Bool :=
  match r, style.extended with
  | [], _ => true
  | '|' :: _, true | ')' :: _, true => true
  | '\\' :: '|' :: _, false | '\\' :: ')' :: _, false => true
  | _, _ => false

def readBranch (style : Style) (again : Source → Option (Regex × Source)) :
    Nat → Bool → Source → Option (Regex × Source)
  | 0, _, _ => none
  | n + 1, first, src =>
    if endsBranch style src.rest then some (.empty, src)
    else
      -- A star that follows nothing is a character like others.
      let atom := match src.rest with
        | '*' :: r => if first then some (style.char '*', true, { src with rest := r }) else none
        | _ => readAtom style again first src
      match atom with
      | none => none
      | some (x, repeats, src) =>
        let x := if repeats then readRepeats style (src.rest.length + 1) x src else some (x, src)
        match x with
        | none => none
        | some (x, src) =>
          (readBranch style again n (first && !repeats) src).map fun (r, src) => (.both x r, src)

def readAlternatives (style : Style) : Nat → Source → Option (Regex × Source)
  | 0, _ => none
  | n + 1, src =>
    match readBranch style (readAlternatives style n) (src.rest.length + 1) true src with
    | none => none
    | some (x, src) =>
      let rest := match src.rest, style.extended with
        | '|' :: r, true => some r
        | '\\' :: '|' :: r, false => some r
        | _, _ => none
      match rest with
      | some r =>
        (readAlternatives style n { src with rest := r }).map fun (y, src) => (.either x y, src)
      | none => some (x, src)

/-- A text in which line ends and tabs that were named by letters are put in place. -/
def nameless : List Char → List Char
  | '\\' :: 'n' :: r => '\n' :: nameless r
  | '\\' :: 't' :: r => '\t' :: nameless r
  | '\\' :: c :: r => '\\' :: c :: nameless r
  | c :: r => c :: nameless r
  | [] => []

def parse? (style : Style) (text : List Char) : Option Regex :=
  let text := if style.escapes then nameless text else text
  match readAlternatives style (text.length + 2) ⟨text, 0⟩ with
  | some (r, src) => if src.rest.isEmpty then some r else none
  | none => none

end Regex

end TableMigration.Shell
