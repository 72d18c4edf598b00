import TableMigration.Shell.Arithmetic

/-!
# Printed arguments

What `echo` and `printf` print. A backslash begins an escape, of which the octal ones name bytes,
and a percent sign begins a directive that shows the next argument.
-/

namespace TableMigration.Shell

def isOctal (c : Char) : Bool :=
  '0' ≤ c && c ≤ '7'

def escape? (c : Char) : Option Char :=
  match c with
  | 'a' => some '\x07'
  | 'b' => some '\x08'
  | 'e' => some '\x1b'
  | 'f' => some '\x0c'
  | 'n' => some '\n'
  | 'r' => some '\r'
  | 't' => some '\t'
  | 'v' => some '\x0b'
  | '\\' => some '\\'
  | _ => none

/-- The character that stands for what follows a backslash, and what comes after that. One that
begins no escape is left where it is. -/
def unescapeOne (cs : List Char) : Char × List Char :=
  match cs with
  | [] => ('\\', [])
  | c :: r =>
    match escape? c with
    | some e => (e, r)
    | none =>
      let octal := (cs.take 3).takeWhile isOctal
      if octal = [] then ('\\', cs)
      else (Char.ofNat ((digits 8 0 octal).1 % 256), cs.drop octal.length)

/-- A text with its escapes replaced. A zero may stand before octal digits, and `\c` ends the
output, which the flag says. -/
def unescape : Nat → List Char → List Char × Bool
  | 0, _ | _, [] => ([], false)
  | n + 1, '\\' :: r =>
    match r with
    | 'c' :: _ => ([], true)
    | _ =>
      let r := match r with
        | '0' :: d :: r => if isOctal d then d :: r else '0' :: d :: r
        | r => r
      let (c, rest) := unescapeOne r
      let (cs, stops) := unescape n rest
      (c :: cs, stops)
  | n + 1, c :: r =>
    let (cs, stops) := unescape n r
    (c :: cs, stops)

def unescapeText (text : String) : String × Bool :=
  let (cs, stops) := unescape (text.length + 1) text.toList
  (String.ofList cs, stops)

def echo (args : List String) : String :=
  let (args, newline) := match args with
    | "-n" :: args => (args, false)
    | args => (args, true)
  let (text, stops) := unescapeText (" ".intercalate args)
  if newline && !stops then text ++ "\n" else text

/-- What is printed where escapes are only replaced if an option asks for that. -/
def plainEcho (args : List String) : String :=
  let options := args.takeWhile fun a =>
    1 < a.length && a.toList.head? = some '-' && (a.toList.drop 1).all "neE".toList.contains
  let letters := options.flatMap String.toList
  let text := " ".intercalate (args.drop options.length)
  let escapes := (letters.filter fun c => c = 'e' || c = 'E').getLast? = some 'e'
  let (text, stops) := if escapes then unescapeText text else (text, false)
  if letters.contains 'n' || stops then text else text ++ "\n"

/-! ## Directives -/

structure Directive where
  flags : List Char
  width : Nat
  precision : Option Nat
  deriving DecidableEq, Repr

namespace Directive

def hasFlag (d : Directive) (c : Char) : Bool :=
  d.flags.contains c

def pad (d : Directive) (text : List Char) : List Char :=
  let gap := List.replicate (d.width - text.length) ' '
  if d.hasFlag '-' then text ++ gap else gap ++ text

/-- A number brought to the width, by zeros after its sign if the flags say so. -/
def padNumber (d : Directive) (zeros : Bool) (sign text : List Char) : List Char :=
  if zeros && d.hasFlag '0' && !d.hasFlag '-' then
    sign ++ List.replicate (d.width - sign.length - text.length) '0' ++ text
  else d.pad (sign ++ text)

def showText (d : Directive) (text : String) : List Char :=
  d.pad (match d.precision with
    | some n => text.toList.take n
    | none => text.toList)

def sign (d : Directive) (negative : Bool) : List Char :=
  if negative then ['-'] else if d.hasFlag '+' then ['+'] else if d.hasFlag ' ' then [' '] else []

def showDigits (d : Directive) (text : List Char) : List Char :=
  match d.precision with
  | some 0 => if text = ['0'] then [] else text
  | some n => List.replicate (n - text.length) '0' ++ text
  | none => text

def showSigned (d : Directive) (n : Int) : List Char :=
  d.padNumber d.precision.isNone (d.sign (n < 0)) (d.showDigits (Nat.toDigits 10 n.natAbs))

def showUnsigned (d : Directive) (base : Nat) (upper : Bool) (n : Nat) : List Char :=
  let digits := d.showDigits (Nat.toDigits base n)
  let digits := if upper then digits.map Char.toUpper else digits
  let sign :=
    if d.hasFlag '#' && base = 16 && n ≠ 0 then if upper then ['0', 'X'] else ['0', 'x'] else []
  let marksOctal := d.hasFlag '#' && base = 8 && digits.head? ≠ some '0'
  let digits := if marksOctal then '0' :: digits else digits
  d.padNumber d.precision.isNone sign digits

end Directive

/-! ## Numbers with a fraction -/

/-- A quotient to the nearest whole number, a half to the even one. -/
def roundDivision (num den : Nat) : Nat :=
  let q := num / den
  let r := num % den
  if den < 2 * r || (den = 2 * r && q % 2 = 1) then q + 1 else q

/-- A number as a quotient of whole numbers, and its sign. -/
structure Fraction where
  negative : Bool
  num : Nat
  den : Nat
  deriving DecidableEq, Repr

def Fraction.ofFloat (x : Float) : Fraction :=
  let bits := x.toBits.toNat
  let exponent := (bits >>> 52) % 2048
  let mantissa := bits % (1 <<< 52)
  let (m, e) := if exponent = 0 then (mantissa, 1) else (mantissa + (1 <<< 52), exponent)
  if 1075 ≤ e then ⟨bits >>> 63 = 1, m <<< (e - 1075), 1⟩
  else ⟨bits >>> 63 = 1, m, 1 <<< (1075 - e)⟩

def Fraction.read? (cs : List Char) : Option (Fraction × List Char) :=
  let cs := cs.dropWhile isSpace
  let (negative, cs) := match cs with
    | '-' :: r => (true, r)
    | '+' :: r => (false, r)
    | r => (false, r)
  let whole := cs.takeWhile Char.isDigit
  let rest := cs.drop whole.length
  let (part, rest) := match rest with
    | '.' :: r => (r.takeWhile Char.isDigit, r.dropWhile Char.isDigit)
    | r => ([], r)
  if whole ++ part = [] then none
  else
    let (exponent, rest) : Int × List Char := match rest with
      | e :: r =>
        if e = 'e' || e = 'E' then
          let (sign, r') : Int × List Char := match r with
            | '-' :: r => (-1, r)
            | '+' :: r => (1, r)
            | r => (1, r)
          if r'.head?.any Char.isDigit then (sign * (digits 10 0 r').1, (digits 10 0 r').2)
          else (0, rest)
        else (0, rest)
      | [] => (0, [])
    let exponent := exponent - part.length
    let x := Float.ofScientific (digits 10 0 (whole ++ part)).1 (exponent < 0) exponent.natAbs
    some ({ Fraction.ofFloat x with negative }, rest)

namespace Directive

def placed (f : Fraction) (places : Nat) (point : Bool) : List Char :=
  let n := roundDivision (f.num * Nat.pow 10 places) f.den
  let ds := Nat.toDigits 10 n
  let ds := List.replicate (places + 1 - ds.length) '0' ++ ds
  ds.take (ds.length - places) ++ (if places = 0 && !point then [] else ['.']) ++
    ds.drop (ds.length - places)

/-- The exponent with which a number has one digit before the point once it is rounded to this
many places. -/
def exponentOf (f : Fraction) (places : Nat) : Int :=
  if f.num = 0 then 0
  else
    let estimate : Int :=
      if f.den ≤ f.num then (Nat.toDigits 10 (f.num / f.den)).length - 1
      else -((Nat.toDigits 10 (f.den / f.num)).length : Int)
    let fits (e : Int) : Bool :=
      let scaled :=
        if 0 ≤ e then roundDivision (f.num * Nat.pow 10 places) (f.den * Nat.pow 10 e.toNat)
        else roundDivision (f.num * Nat.pow 10 (places + e.natAbs)) f.den
      Nat.pow 10 places ≤ scaled && scaled < Nat.pow 10 (places + 1)
    if fits estimate then estimate else if fits (estimate + 1) then estimate + 1 else estimate - 1

def scientific (f : Fraction) (places : Nat) (point : Bool) : List Char :=
  let e := exponentOf f places
  let scaled : Fraction :=
    if 0 ≤ e then { f with den := f.den * Nat.pow 10 e.toNat }
    else { f with num := f.num * Nat.pow 10 e.natAbs }
  let shown := Nat.toDigits 10 e.natAbs
  placed scaled places point ++ ['e', if e < 0 then '-' else '+'] ++
    List.replicate (2 - shown.length) '0' ++ shown

/-- The shorter form of a number, without zeros after its last place. -/
def general (f : Fraction) (precision : Nat) (keepsZeros : Bool) : List Char :=
  let precision := max precision 1
  let e := exponentOf f (precision - 1)
  let trim (cs : List Char) : List Char :=
    if keepsZeros || !cs.contains '.' then cs
    else ((cs.reverse.dropWhile (· = '0')).dropWhile (· = '.')).reverse
  if e < -4 || (precision : Int) ≤ e then
    let cs := scientific f (precision - 1) keepsZeros
    let front := cs.takeWhile (· ≠ 'e')
    trim front ++ cs.drop front.length
  else trim (placed f (precision - 1 - e).toNat keepsZeros)

def showFraction (d : Directive) (kind : Char) (f : Fraction) : List Char :=
  let precision := d.precision.getD 6
  let text := match kind.toLower with
    | 'f' => placed f precision (d.hasFlag '#')
    | 'e' => scientific f precision (d.hasFlag '#')
    | _ => general f precision (d.hasFlag '#')
  d.padNumber true (d.sign f.negative) (if kind.isUpper then text.map Char.toUpper else text)

end Directive

/-! ## Formats -/

structure Printout where
  text : List Char
  arguments : List String
  /-- Complaints after which printing goes on. -/
  complaints : List String
  /-- Whether nothing more is printed, and the complaint that ended it. -/
  ended : Bool
  fault : Option String
  deriving DecidableEq, Repr

namespace Printout

def add (p : Printout) (cs : List Char) : Printout :=
  { p with text := p.text ++ cs }

def complain (p : Printout) (text : String) : Printout :=
  { p with complaints := p.complaints ++ [text] }

def fail (p : Printout) (text : String) : Printout :=
  { p with ended := true, fault := some text }

def next (p : Printout) : Option String × Printout :=
  match p.arguments with
  | [] => (none, p)
  | a :: rest => (some a, { p with arguments := rest })

def check (p : Printout) (arg : String) (rest : List Char) (outOfRange : Bool) : Printout :=
  if rest.length = arg.length && !rest.isEmpty then p.complain (arg ++ ": expected numeric value")
  else if !rest.isEmpty then p.complain (arg ++ ": not completely converted")
  else if outOfRange then p.complain (arg ++ ": Numerical result out of range")
  else p

/-- The next argument as a number, limited to a range. A quote stands before a character whose
code is meant. -/
def nextInteger (p : Printout) (least greatest : Int) : Int × Printout :=
  match p.next with
  | (none, p) => (0, p)
  | (some arg, p) =>
    match arg.toList with
    | '\'' :: r | '"' :: r => ((r.head?.map Char.toNat).getD 0, p)
    | cs =>
      match signed? cs with
      | some (n, rest) =>
        let value := max least (min greatest n)
        (value, p.check arg rest (value ≠ n))
      | none => (0, p.check arg cs false)

def nextSigned (p : Printout) : Int × Printout :=
  p.nextInteger leastInteger greatestInteger

/-- Negative numbers wrap around. -/
def nextUnsigned (p : Printout) : Nat × Printout :=
  let (n, p) := p.nextInteger (1 - UInt64.size) (UInt64.size - 1)
  ((n % UInt64.size).toNat, p)

def nextFraction (p : Printout) : Fraction × Printout :=
  match p.next with
  | (none, p) => (⟨false, 0, 1⟩, p)
  | (some arg, p) =>
    match arg.toList with
    | '\'' :: r | '"' :: r => (⟨false, (r.head?.map Char.toNat).getD 0, 1⟩, p)
    | cs =>
      match Fraction.read? cs with
      | some (f, rest) => (f, p.check arg rest false)
      | none => (⟨false, 0, 1⟩, p.check arg cs false)

def size (p : Printout) (cs : List Char) : Int × List Char × Printout :=
  match cs with
  | '*' :: r =>
    let (n, p) := p.nextSigned
    (n, r, p)
  | cs =>
    let (n, r) := digits 10 0 cs
    (n, r, p)

def convert (p : Printout) (d : Directive) (kind : Char) (written : List Char) : Printout :=
  match kind with
  | 's' =>
    let (a, p) := p.next
    p.add (d.showText (a.getD ""))
  | 'b' =>
    let (a, p) := p.next
    let (text, stops) := unescapeText (a.getD "")
    { p.add (d.showText text) with ended := stops }
  | 'c' =>
    let (a, p) := p.next
    p.add (d.pad [((a.getD "").toList.head?).getD '\x00'])
  | 'd' | 'i' =>
    let (n, p) := p.nextSigned
    p.add (d.showSigned n)
  | 'u' =>
    let (n, p) := p.nextUnsigned
    p.add (d.showUnsigned 10 false n)
  | 'o' =>
    let (n, p) := p.nextUnsigned
    p.add (d.showUnsigned 8 false n)
  | 'x' | 'X' =>
    let (n, p) := p.nextUnsigned
    p.add (d.showUnsigned 16 (kind = 'X') n)
  | 'e' | 'E' | 'f' | 'F' | 'g' | 'G' =>
    let (f, p) := p.nextFraction
    p.add (d.showFraction kind f)
  | _ => p.fail (String.ofList written ++ ": invalid directive")

def direct (p : Printout) (cs : List Char) : Printout × List Char :=
  let flags := cs.takeWhile "#-+ 0'".toList.contains
  let (width, r, p) := p.size (cs.drop flags.length)
  let flags := if width < 0 then '-' :: flags else flags
  let (precision, r, p) := match r with
    | '.' :: r =>
      let (n, r, p) := p.size r
      (if n < 0 then none else some n.toNat, r, p)
    | r => (none, r, p)
  match r with
  | [] => (p.fail "missing format character", [])
  | kind :: rest =>
    (p.convert ⟨flags, width.natAbs, precision⟩ kind ('%' :: cs.take (cs.length - rest.length)),
      rest)

def pass : Nat → Printout → List Char → Printout
  | 0, p, _ | _, p, [] => p
  | n + 1, p, '\\' :: r =>
    let (c, rest) := unescapeOne r
    pass n (p.add [c]) rest
  | n + 1, p, '%' :: '%' :: r => pass n (p.add ['%']) r
  | n + 1, p, '%' :: r =>
    let (p, rest) := p.direct r
    if p.ended then p else pass n p rest
  | n + 1, p, c :: r => pass n (p.add [c]) r

/-- Passes over a format as long as they use up arguments. -/
def passes (format : List Char) : Nat → Printout → Printout
  | 0, p => p
  | n + 1, p =>
    let q := pass (format.length + 1) p format
    if q.ended || q.arguments.isEmpty || q.arguments.length = p.arguments.length then q
    else passes format n q

end Printout

def printf (format : String) (args : List String) : Printout :=
  Printout.passes format.toList (args.length + 1) ⟨[], args, [], false, none⟩

end TableMigration.Shell
