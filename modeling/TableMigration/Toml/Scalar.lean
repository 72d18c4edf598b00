import TableMigration.Text.Split
import TableMigration.Toml.Item

/-!
# TOML values written without quotes

Booleans, integers, floating-point numbers, and dates and times.
-/

namespace TableMigration.Toml

def isHexDigit (c : Char) : Bool :=
  c.isDigit || ('a' ≤ c && c ≤ 'f') || ('A' ≤ c && c ≤ 'F')

def digitValue (c : Char) : Nat :=
  if c.isDigit then c.toNat - '0'.toNat
  else if 'a' ≤ c then c.toNat - 'a'.toNat + 10
  else c.toNat - 'A'.toNat + 10

def valueIn (base : Nat) (digits : List Char) : Nat :=
  digits.foldl (fun v c => v * base + digitValue c) 0

def digits? (isDigit : Char → Bool) (cs : List Char) : Option (List Char) :=
  let groups := Text.pieces '_' cs
  if groups.all fun g => !g.isEmpty && g.all isDigit then some groups.flatten else none

/-- Digits of a decimal number, which has no zero before other digits. -/
def decimal? (cs : List Char) : Option (List Char) :=
  match digits? Char.isDigit cs with
  | some ('0' :: _ :: _) => none
  | digits => digits

def dropSign : List Char → Bool × List Char
  | '-' :: cs => (true, cs)
  | '+' :: cs => (false, cs)
  | cs => (false, cs)

def underscoresFit (cs : List Char) : Bool :=
  let groups := Text.pieces '_' cs
  groups.tail.all (fun g => g.head?.any isHexDigit) &&
    groups.dropLast.all fun g => g.getLast?.any isHexDigit

def leastInteger : Int := -0x80000000000000000000000000000000

def greatestInteger : Int := 0xFFFFFFFFFFFFFFFFFFFFFFFFFFFFFFFF

/-- The value of an integer of at most 128 bits with these digits, if it is one. -/
def integerValue? (base : Nat) (isDigit : Char → Bool) (negative : Bool) (cs : List Char) :
    Option Int :=
  let digits := cs.filter (· ≠ '_')
  let n : Int := if negative then -(valueIn base digits : Int) else valueIn base digits
  if digits ≠ [] ∧ digits.all isDigit ∧ leastInteger ≤ n ∧ n ≤ greatestInteger then some n
  else none

def basedInteger? (base : Nat) (isDigit : Char → Bool) (cs : List Char) : Option Item :=
  if (cs.all fun c => isDigit c || c = '_') && underscoresFit cs then
    some (.integer (integerValue? base isDigit false cs))
  else none

/-- Whether decimal digits are followed by nothing, or by an underscore and what may be taken for
more digits: that they are none is found when the value is asked for. -/
def isDecimalInteger (cs : List Char) : Bool :=
  match cs.dropWhile Char.isDigit with
  | [] => cs = ['0'] || cs.head?.any fun c => c.isDigit && c ≠ '0'
  | '_' :: rest =>
    (cs.head?.any fun c => c.isDigit && c ≠ '0') && underscoresFit cs &&
      !rest.any fun c => c = '.' || c = 'e' || c = 'E' || c = ' '
  | _ => false

def integer? : List Char → Option Item
  | '0' :: 'x' :: cs => basedInteger? 16 isHexDigit cs
  | '0' :: 'o' :: cs => basedInteger? 8 (fun c => '0' ≤ c && c ≤ '7') cs
  | '0' :: 'b' :: cs => basedInteger? 2 (fun c => c = '0' || c = '1') cs
  | cs =>
    let (negative, cs) := dropSign cs
    let item := Item.integer (integerValue? 10 Char.isDigit negative cs)
    if isDecimalInteger cs then some item else none

/-- Whether `digits`, moved `shift` places to the left, stay below the greatest double. -/
def isFinite (digits : List Char) (shift : Int) : Bool :=
  let n := valueIn 10 digits
  let limit := (1 <<< 1024) - (1 <<< 970)
  if n = 0 || shift < -(digits.length : Int) then true
  else if 0 ≤ shift then shift ≤ 400 && n * Nat.pow 10 shift.toNat < limit
  else n < limit * Nat.pow 10 (-shift).toNat

def decimalFloat? (cs : List Char) : Option Item :=
  let split (c : Char) (cs : List Char) : List Char × Option (List Char) :=
    match Text.splitOnce c cs with
    | some (before, after) => (before, some after)
    | none => (cs, none)
  let (mantissa, exponent) := split 'e' (cs.map fun c => if c = 'E' then 'e' else c)
  let (whole, fraction) := split '.' mantissa
  let exponentValue : Option (Option Int) := exponent.map fun e =>
    let (negative, e) := dropSign e
    (digits? Char.isDigit e).map fun ds =>
      let n : Int := valueIn 10 ds
      if negative then -n else n
  match decimal? whole, fraction.map (digits? Char.isDigit), exponentValue with
  | some ds, some (some f), none => some (.float (isFinite (ds ++ f) (-(f.length : Int))))
  | some ds, some (some f), some (some e) => some (.float (isFinite (ds ++ f) (e - f.length)))
  | some ds, none, some (some e) => some (.float (isFinite ds e))
  | _, _, _ => none

def float? (cs : List Char) : Option Item :=
  let body := (dropSign cs).2
  if body = "inf".toList || body = "nan".toList then some (.float true) else decimalFloat? body

def two? : List Char → Option (Nat × List Char)
  | a :: b :: cs => if a.isDigit && b.isDigit then some (valueIn 10 [a, b], cs) else none
  | _ => none

def daysIn (year month : Nat) : Nat :=
  if month = 2 then
    if year % 4 = 0 && (year % 100 ≠ 0 || year % 400 = 0) then 29 else 28
  else if month = 4 || month = 6 || month = 9 || month = 11 then 30
  else 31

def afterDate? (cs : List Char) : Option (List Char) := do
  let (century, cs) ← two? cs
  let (year, cs) ← two? cs
  let '-' :: cs := cs | none
  let (month, cs) ← two? cs
  let '-' :: cs := cs | none
  let (day, cs) ← two? cs
  if 1 ≤ month && month ≤ 12 && 1 ≤ day && day ≤ daysIn (century * 100 + year) month then some cs
  else none

def afterTime? (cs : List Char) : Option (List Char) := do
  let (hour, cs) ← two? cs
  let ':' :: cs := cs | none
  let (minute, cs) ← two? cs
  if 23 < hour || 59 < minute then none
  else
    match cs with
    | ':' :: cs =>
      let (second, cs) ← two? cs
      if 60 < second then none
      else
        match cs with
        | '.' :: cs =>
          if (cs.takeWhile Char.isDigit).isEmpty then none else some (cs.dropWhile Char.isDigit)
        | cs => some cs
    | cs => some cs

def isOffset : List Char → Bool
  | [] | ['Z'] | ['z'] => true
  | sign :: cs =>
    (sign = '+' || sign = '-') &&
      match two? cs with
      | some (hour, ':' :: cs) =>
        match two? cs with
        | some (minute, []) => hour ≤ 23 && minute ≤ 59
        | _ => false
      | _ => false

def isMoment (cs : List Char) : Bool :=
  match afterDate? cs with
  | some [] => true
  | some (c :: time) =>
    (c = 'T' || c = 't' || c = ' ') &&
      match afterTime? time with
      | some offset => isOffset offset
      | none => false
  | none => afterTime? cs = some []

def scalar? (cs : List Char) : Option Item :=
  if cs = "true".toList then some (.boolean true)
  else if cs = "false".toList then some (.boolean false)
  else
    match integer? cs, float? cs with
    | some item, _ | none, some item => some item
    | none, none => if isMoment cs then some .moment else none

def endsScalar (c : Char) : Bool :=
  c = '=' || c = ',' || c = '[' || c = ']' || c = '{' || c = '}' || c = ' ' || c = '\t' ||
    c = '#' || c = '\r' || c = '\n' || c = '\'' || c = '"'

def isScalarChar (c : Char) : Bool :=
  !endsScalar c

/-- A value without quotes and what follows it. A single blank may stand between a date and a
time. -/
def readScalar (cs : List Char) : Option (Item × List Char) :=
  let run := cs.takeWhile isScalarChar
  let rest := cs.dropWhile isScalarChar
  let (run, rest) :=
    match afterDate? run, rest with
    | some [], ' ' :: c :: more =>
      if c.isDigit then
        (run ++ ' ' :: (c :: more).takeWhile isScalarChar, (c :: more).dropWhile isScalarChar)
      else (run, rest)
    | _, _ => (run, rest)
  (scalar? run).map fun item => (item, rest)

end TableMigration.Toml
