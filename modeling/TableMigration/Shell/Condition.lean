import TableMigration.Shell.Session

/-!
# Conditions

What `test` decides about texts, numbers and files. A word that could be an operator is an operand
where what follows it says so.
-/

namespace TableMigration.Shell

inductive ConditionFault
  | notNumber (text : String)
  | outOfRange (text : String)
  | argumentExpected (operator : String)
  | unexpectedOperator (word : String)
  | unclosed
  deriving DecidableEq, Repr

def ConditionFault.message : ConditionFault → String
  | .notNumber text => "Illegal number: " ++ text
  | .outOfRange text => "Illegal number: " ++ text
  | .argumentExpected operator => operator ++ ": argument expected"
  | .unexpectedOperator word => word ++ ": unexpected operator"
  | .unclosed => "closing paren expected"

def fileOperators : List String :=
  ["-r", "-w", "-x", "-e", "-f", "-d", "-c", "-b", "-p", "-h", "-L", "-S", "-s", "-u", "-g", "-k",
   "-O", "-G"]

def isUnaryOperator (word : String) : Bool :=
  word == "-n" || word == "-z" || word == "-t" || fileOperators.contains word

def isBinaryOperator (word : String) : Bool :=
  ["=", "!=", "<", ">", "-eq", "-ne", "-lt", "-le", "-gt", "-ge", "-nt", "-ot", "-ef"].contains word

def testFile (disk : Disk) (operator path : String) : Bool :=
  match disk.lookup? (pathOf path), operator with
  | none, _ => false
  | some entry, "-f" => match entry with
    | .file .. | .program => true
    | _ => false
  | some entry, "-d" => entry = .directory
  | some entry, "-c" => match entry with
    | .device _ => true
    | _ => false
  | some entry, "-s" => match entry with
    | .file content _ => !content.isEmpty
    | .device _ => false
    | _ => true
  | some entry, "-x" => match entry with
    | .file _ executable => executable
    | .device _ => false
    | _ => true
  | some _, operator => ["-r", "-w", "-e", "-O", "-G"].contains operator

def decimal (text : String) : Except ConditionFault Int :=
  let cs := text.toList.dropWhile isSpace
  let (negative, cs) := match cs with
    | '-' :: r => (true, r)
    | '+' :: r => (false, r)
    | r => (false, r)
  let (n, rest) := digits 10 0 cs
  let value : Int := if negative then -n else n
  if rest.length = cs.length || !rest.all isSpace then .error (.notNumber text)
  else if clamp value ≠ value then .error (.outOfRange text)
  else .ok value

def testUnary (disk : Disk) (operator operand : String) : Except ConditionFault Bool :=
  match operator with
  | "-z" => .ok (operand == "")
  | "-n" => .ok (operand != "")
  | "-t" => (decimal operand).map fun _ => false
  | _ => .ok (testFile disk operator operand)

def testBinary (disk : Disk) (a operator b : String) : Except ConditionFault Bool :=
  let compared (p : Int → Int → Bool) : Except ConditionFault Bool := do
    let m ← decimal a
    let n ← decimal b
    return p m n
  let holds (path : String) : Bool := FileSystem.holds disk (pathOf path)
  match operator with
  | "=" => .ok (a == b)
  | "!=" => .ok (a != b)
  | "<" => .ok (decide (a < b))
  | ">" => .ok (decide (b < a))
  | "-eq" => compared (· == ·)
  | "-ne" => compared (· != ·)
  | "-lt" => compared fun m n => decide (m < n)
  | "-le" => compared fun m n => decide (m ≤ n)
  | "-gt" => compared fun m n => decide (n < m)
  | "-ge" => compared fun m n => decide (n ≤ m)
  -- No file of a disk is newer than another.
  | "-nt" | "-ot" => .ok false
  | _ => .ok (holds a && disk.locate (pathOf a) == disk.locate (pathOf b))

/-- How a word is to be understood before the words that follow it. -/
inductive ConditionWord
  | unary
  | binary
  | not
  | and
  | or
  | opening
  | closing
  | operand
  deriving DecidableEq, Repr

/-- An operator of one operand is an operand where no operand or an operator of two follows. -/
def conditionWord (word : String) (after : List String) : ConditionWord :=
  let isOperand := match after with
    | [] => true
    | [_] => false
    | b :: _ => isBinaryOperator b
  if isBinaryOperator word then .binary
  else if isUnaryOperator word then if isOperand then .operand else .unary
  else
    match word with
    | "!" => if isOperand then .operand else .not
    | "-a" => .and
    | "-o" => .or
    | "(" => if after.isEmpty then .operand else .opening
    | ")" => .closing
    | _ => .operand

inductive ConditionLevel
  | or
  | and
  | not
  deriving DecidableEq, Repr

/-- The verdict on the first part of a condition, and the words after it. -/
def decideCondition (disk : Disk) :
    Nat → ConditionLevel → List String → Except ConditionFault (Bool × List String)
  | 0, _, ws => .ok (false, ws)
  | n + 1, .or, ws => do
    let (a, ws) ← decideCondition disk n .and ws
    match ws with
    | "-o" :: rest =>
      let (b, ws) ← decideCondition disk n .or rest
      return (a || b, ws)
    | _ => return (a, ws)
  | n + 1, .and, ws => do
    let (a, ws) ← decideCondition disk n .not ws
    match ws with
    | "-a" :: rest =>
      let (b, ws) ← decideCondition disk n .and rest
      return (a && b, ws)
    | _ => return (a, ws)
  | _ + 1, .not, [] => .ok (false, [])
  | n + 1, .not, w :: ws =>
    match conditionWord w ws, ws with
    | .not, _ => do
      let (a, ws) ← decideCondition disk n .not ws
      return (!a, ws)
    | .opening, ")" :: rest => .ok (false, rest)
    | .opening, _ => do
      let (a, ws) ← decideCondition disk n .or ws
      match ws with
      | ")" :: rest => return (a, rest)
      | _ => throw .unclosed
    | .unary, [] => throw (.argumentExpected w)
    | .unary, operand :: rest => do return (← testUnary disk w operand, rest)
    | _, operator :: rest =>
      if isBinaryOperator operator then
        match rest with
        | [] => throw (.argumentExpected operator)
        | b :: rest => do return (← testBinary disk w operator b, rest)
      else .ok (w ≠ "", ws)
    | _, [] => .ok (w ≠ "", ws)

/-- The verdict of a condition, of which none is false. -/
def evaluateCondition (disk : Disk) : List String → Except ConditionFault Bool
  | [] => .ok false
  | ws =>
    go 5 false ws
where
  go : Nat → Bool → List String → Except ConditionFault Bool
    | 0, _, _ => .ok false
    | n + 1, negated, ws =>
      let whole : Except ConditionFault Bool := do
        let (a, rest) ← decideCondition disk (4 * ws.length + 8) .or ws
        match rest with
        | w :: _ => throw (.unexpectedOperator w)
        | [] => return a != negated
      let inner := ws.drop 1
      if ws.length = 3 && isBinaryOperator (ws[1]?.getD "") then whole
      else if ws.length = 3 || ws.length = 4 then
        if ws.head? = some "(" && ws.getLast? = some ")" then go n negated inner.dropLast
        else if ws.head? = some "!" then go n true inner
        else whole
      else whole

end TableMigration.Shell
