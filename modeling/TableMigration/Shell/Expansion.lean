import TableMigration.Shell.Pattern
import TableMigration.Shell.Session

/-!
# What words expand to

Parameters, what commands print and expressions are put in place. What came from outside quotes is
split at separators, and what is left of a word as a pattern becomes the paths that match it.
-/

namespace TableMigration.Shell

/-- A step in what a word expands to. -/
inductive Mark
  /-- A character, which may be split at if it is a separator. -/
  | letter (l : Letter) (splits : Bool)
  /-- Quotes, which make a field even if nothing is between them. -/
  | quotes
  /-- The end of an argument. -/
  | cut
  deriving DecidableEq, Repr

/-- How a word expands. -/
structure Manner where
  /-- Whether it becomes several fields. -/
  fields : Bool
  /-- Whether it takes the place of a parameter, so that it is split like one. -/
  inPlace : Bool
  deriving DecidableEq, Repr

abbrev Capture := Option Command → Act String

/-- The marks of a value, in which null characters separate arguments. -/
def marksOfValue (quoted : Bool) (value : String) : List Mark :=
  value.toList.flatMap fun c =>
    if c = '\x00' then if quoted then [.cut, .quotes] else [.cut]
    else [.letter ⟨c, quoted⟩ !quoted]

def lettersOf (marks : List Mark) : List Letter :=
  marks.filterMap fun m => match m with
    | .letter l _ => some l
    | _ => none

def textOf (ls : List Letter) : String :=
  String.ofList (ls.map (·.char))

/-- The arguments as one value. In fields they stay apart, else the first separator joins them. -/
def joinedArguments (s : Session) (name : String) (quoted : Bool) (manner : Manner) : String :=
  let apart := manner.fields && (!quoted || name = "@")
  let joint := match s.value? "IFS" with
    | none => " "
    | some ifs => (ifs.take 1).toString
  (if apart then "\x00" else joint).intercalate s.arguments

def parameterValue (s : Session) (name : String) (quoted : Bool) (manner : Manner) :
    Option String :=
  if name = "@" || name = "*" then
    if s.arguments.isEmpty then none else some (joinedArguments s name quoted manner)
  else s.value? name

def marksOfParameter (name : String) (quoted : Bool) (value : String) : List Mark :=
  (if quoted && name = "@" then [Mark.quotes] else []) ++ marksOfValue quoted value

/-- Refuses a parameter that is not set, if the session asks for that. -/
def requireSet (name : String) : Act Unit := do
  if (← get).hasOption 'u' && name ≠ "@" && name ≠ "*" then fail (name ++ ": parameter not set")

def trimLines (text : String) : List Char :=
  (text.toList.reverse.dropWhile (· = '\n')).reverse.filter (· ≠ '\x00')

def arithmeticValue (text : String) : Act Int := do
  let parameters : Parameters (ExceptT ArithmeticFault Act) :=
    { get := fun x => do return ((← get).value? x).getD ""
      set := fun x n => assign x (toString n) }
  let complaint (what : String) : Act Int :=
    fail ("arithmetic expression: " ++ what ++ ": \"" ++ text ++ "\"")
  let r ← match Expression.parse text with
    | .ok e => (e.evaluate parameters).run
    | .error e => pure (.error e)
  match r with
  | .ok n => return n
  | .error .unfinished => complaint "expecting primary"
  | .error .surplus => complaint "expecting EOF"
  | .error .divisionByZero => complaint "division by zero"
  | .error (.notNumber value) => fail ("Illegal number: " ++ value)

/-! ## Home directories -/

def homeOf? (s : Session) (name : List Char) : Option String :=
  if name = [] then s.value? "HOME" else if name = "root".toList then some "/root" else none

/-- The bare characters at the start of a word up to a slash, and in assignments to a colon. -/
def tildeName (inAssignment : Bool) : Word → Option (List Char × Word)
  | [] => some ([], [])
  | .bare c :: w =>
    if c = '/' || (inAssignment && c = ':') then some ([], .bare c :: w)
    else (tildeName inAssignment w).map fun (name, rest) => (c :: name, rest)
  | _ => none

def replaceTilde (s : Session) (inAssignment : Bool) (w : Word) : Word :=
  match w with
  | .bare '~' :: rest =>
    match tildeName inAssignment rest with
    | some (name, after) =>
      match homeOf? s name with
      | some home => home.toList.map .literal ++ after
      | none => w
    | none => w
  | _ => w

/-- The value of an assignment, in which tildes may also follow colons. -/
def replaceTildes (s : Session) : Nat → Word → Word
  | 0, w => w
  | n + 1, w =>
    let w := replaceTilde s true w
    let before := w.takeWhile fun g => match g with
      | .bare ':' => false
      | _ => true
    match w.drop before.length with
    | [] => w
    | colon :: rest => before ++ colon :: replaceTildes s n rest

/-! ## Words -/

section
variable (capture : Capture)

mutual

def expandGlyph (manner : Manner) : Glyph → Act (List Mark)
  | .bare c => return [.letter ⟨c, false⟩ manner.inPlace]
  | .literal c => return [.letter ⟨c, true⟩ false]
  | .quotes => return [.quotes]
  | .malformed => fail "Bad substitution"
  | .parameter name quoted => do
    match parameterValue (← get) name quoted manner with
    | some value => return marksOfParameter name quoted value
    | none =>
      requireSet name
      return []
  | .length name quoted => do
    let s ← get
    let all := name = "@" || name = "*"
    match if all then some (" ".intercalate s.arguments) else s.value? name with
    | some value => return marksOfValue quoted (toString value.length)
    | none =>
      requireSet name
      return marksOfValue quoted "0"
  | .choice name quoted kind colon word => do
    let value := parameterValue (← get) name quoted manner
    let isSet := value.any fun value => !colon || value ≠ ""
    let shown : List Mark := marksOfParameter name quoted (value.getD "")
    match kind with
    | .fallback => if isSet then return shown else expandGlyphs ⟨manner.fields, !quoted⟩ word
    | .alternative =>
      if isSet then expandGlyphs ⟨manner.fields, !quoted⟩ word else return []
    | .assignment =>
      if isSet then return shown
      let text := textOf (lettersOf (← expandGlyphs ⟨false, false⟩ word))
      unless isName name do fail (name ++ ": bad variable name")
      assign name text
      return marksOfValue quoted text
    | .complaint =>
      if isSet then return shown
      let text := textOf (lettersOf (← expandGlyphs ⟨false, false⟩ word))
      fail (name ++ ": " ++
        if text = "" then "parameter not set" ++ if colon then " or null" else "" else text)
  | .trimmed name quoted trim pattern => do
    match parameterValue (← get) name quoted manner with
    | none =>
      requireSet name
      return []
    | some value =>
      let p := Pattern.ofLetters (lettersOf (← expandGlyphs ⟨false, false⟩ pattern))
      let cut := if trim.atStart then cutStart else cutEnd
      return marksOfParameter name quoted (String.ofList (cut p trim.longest value.toList))
  | .output command quoted => do
    let text ← capture command
    return marksOfValue quoted (String.ofList (trimLines text))
  | .value expression quoted => do
    let text := textOf (lettersOf (← expandGlyphs ⟨false, false⟩ expression))
    return marksOfValue quoted (toString (← arithmeticValue text))

def expandGlyphs (manner : Manner) : List Glyph → Act (List Mark)
  | [] => return []
  | g :: w => do
    let here ← expandGlyph manner g
    return here ++ (← expandGlyphs manner w)

end

end

/-! ## Fields -/

inductive Before
  | text
  | blank
  | separator
  deriving DecidableEq, Repr

/-- Splits what a word expanded to at separators, where `field` is what has been read of a field,
last letter first. Blanks around a separator belong to it, and blanks at the ends make no fields. -/
def splitFields (separators : List Char) :
    Before → Option (List Letter) → List Mark → List (List Letter)
  | _, field, [] => (field.map List.reverse).toList
  | before, field, .quotes :: ms => splitFields separators before (some (field.getD [])) ms
  | _, field, .cut :: ms =>
    (field.map List.reverse).toList ++ splitFields separators .text none ms
  | before, field, .letter l splits :: ms =>
    if splits && separators.contains l.char then
      if isSpace l.char then
        match field with
        | some f => f.reverse :: splitFields separators .blank none ms
        | none => splitFields separators before none ms
      else
        match field with
        | some f => f.reverse :: splitFields separators .separator none ms
        | none =>
          if before = .blank then splitFields separators .separator none ms
          else [] :: splitFields separators .separator none ms
    else splitFields separators .text (some (l :: field.getD [])) ms

def splitLetters : List Letter → List (List Letter)
  | [] => [[]]
  | l :: ls =>
    match l.char, splitLetters ls with
    | '/', pieces => [] :: pieces
    | _, piece :: pieces => (l :: piece) :: pieces
    | _, [] => [[l]]

def matchingNames (disk : Disk) (directory : String) (piece : List Letter) : List String :=
  let p := Pattern.ofLetters piece
  let shown := piece.head?.any (·.char = '.')
  let place := if directory = "" then "." else directory
  match disk.locate (pathOf place) with
  | .found names =>
    if disk.find? names = some .directory then
      (((if shown then [".", ".."] else []) ++ (disk.namesBelow names).map ofRaw).filter fun n =>
        (shown || n.toList.head? ≠ some '.') && p.matches n.toList)
    else []
  | _ => []

/-- The paths that the pieces of a path match, in `directory`, whose text ends in a slash. -/
def matchingPaths (disk : Disk) (directory : String) : List (List Letter) → List String
  | [] => []
  | [last] =>
    if isPattern last then (matchingNames disk directory last).map (directory ++ ·)
    else
      let text := directory ++ textOf last
      if FileSystem.holds disk (pathOf text) then [text] else []
  | piece :: rest =>
    if isPattern piece then
      (matchingNames disk directory piece).flatMap fun n =>
        matchingPaths disk (directory ++ n ++ "/") rest
    else matchingPaths disk (directory ++ textOf piece ++ "/") rest

/-- The paths that a field matches, or its own text if it matches none. -/
def expandPattern (s : Session) (field : List Letter) : List String :=
  if s.hasOption 'f' || !isPattern field then [textOf field]
  else
    match matchingPaths s.disk "" (splitLetters field) with
    | [] => [textOf field]
    | paths => paths.mergeSort fun a b => decide (a ≤ b)

section
variable (capture : Capture)

def expandFields (w : Word) : Act (List String) := do
  let marks ← expandGlyphs capture ⟨true, false⟩ (replaceTilde (← get) false w)
  let s ← get
  return (splitFields s.separators .text none marks).flatMap (expandPattern s)

def expandLetters (w : Word) : Act (List Letter) := do
  return lettersOf (← expandGlyphs capture ⟨false, false⟩ (replaceTilde (← get) false w))

def expandText (w : Word) : Act String := do
  return textOf (← expandLetters capture w)

def expandValue (w : Word) : Act String := do
  let s ← get
  return textOf (lettersOf
    (← expandGlyphs capture ⟨false, false⟩ (replaceTildes s (w.length + 1) w)))

end

end TableMigration.Shell
