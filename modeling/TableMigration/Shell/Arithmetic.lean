/-!
# Arithmetic of a shell

Expressions over whole numbers of 64 bits, which wrap around. A name stands for the number that its
parameter holds, and may be assigned to.
-/

namespace TableMigration.Shell

inductive Operator
  | multiply | divide | remainder | add | subtract | shiftLeft | shiftRight
  | less | lessEqual | greater | greaterEqual | equal | unequal | bitAnd | bitXor | bitOr
  deriving DecidableEq, Repr

inductive Unary
  | plus | minus | not | complement
  deriving DecidableEq, Repr

inductive Expression
  | number (n : Int)
  | name (name : String)
  | unary (op : Unary) (e : Expression)
  | binary (op : Operator) (a b : Expression)
  | both (a b : Expression)
  | either (a b : Expression)
  | conditional (test yes no : Expression)
  /-- Assigns a value, joined by the operator with the one before if there is an operator. -/
  | assign (name : String) (op : Option Operator) (e : Expression)
  deriving Repr

def wrap (n : Int) : Int :=
  n.bmod UInt64.size

def greatestInteger : Int := 0x7FFFFFFFFFFFFFFF

def leastInteger : Int := -0x8000000000000000

def clamp (n : Int) : Int :=
  max leastInteger (min greatestInteger n)

def digitValue? (c : Char) : Option Nat :=
  if c.isDigit then some (c.toNat - '0'.toNat)
  else if c.isLower then some (c.toNat - 'a'.toNat + 10)
  else if c.isUpper then some (c.toNat - 'A'.toNat + 10)
  else none

def digits (base : Nat) : Nat → List Char → Nat × List Char
  | n, [] => (n, [])
  | n, c :: r =>
    match digitValue? c with
    | some d => if d < base then digits base (n * base + d) r else (n, c :: r)
    | none => (n, c :: r)

/-- A number in base 16 after `0x`, in base 8 after `0` and in base 10 else; nothing if there is
no digit. -/
def natural? : List Char → Option (Nat × List Char)
  | '0' :: x :: c :: r =>
    if (x = 'x' || x = 'X') && (digitValue? c).any (· < 16) then some (digits 16 0 (c :: r))
    else some (digits 8 0 (x :: c :: r))
  | '0' :: r => some (digits 8 0 r)
  | c :: r => if c.isDigit then some (digits 10 0 (c :: r)) else none
  | [] => none

def isSpace (c : Char) : Bool :=
  c == ' ' || (9 ≤ c.toNat && c.toNat ≤ 13)

def signed? (cs : List Char) : Option (Int × List Char) :=
  match cs.dropWhile isSpace with
  | '-' :: r => (natural? r).map fun (n, r) => (-n, r)
  | '+' :: r => (natural? r).map fun (n, r) => (n, r)
  | r => (natural? r).map fun (n, r) => (n, r)

/-- The number that a parameter holds: none is zero, and blanks may follow. -/
def valueOf? (s : String) : Option Int :=
  match signed? s.toList with
  | some (n, r) => if r.all isSpace then some (clamp n) else none
  | none => if s.toList.all isSpace then some 0 else none

/-! ## Reading -/

inductive Lexeme
  | number (n : Int)
  | name (name : String)
  | sign (s : String)
  deriving DecidableEq, Repr

/-- The signs, longer ones before those they begin with. -/
def signs : List String :=
  ["<<=", ">>=", "<<", ">>", "<=", ">=", "==", "!=", "&&", "||", "+=", "-=", "*=", "/=", "%=",
   "&=", "^=", "|=", "+", "-", "*", "/", "%", "&", "^", "|", "<", ">", "=", "!", "~", "(", ")",
   "?", ":"]

def isNameLetter (c : Char) : Bool :=
  c.isAlphanum || c == '_'

def lexemes : Nat → List Char → Option (List Lexeme)
  | 0, _ => none
  | n + 1, cs =>
    match cs.dropWhile isSpace with
    | [] => some []
    | c :: r =>
      if c.isDigit then
        match natural? (c :: r) with
        | some (v, rest) => (lexemes n rest).map (.number (clamp v) :: ·)
        | none => none
      else if isNameLetter c then
        let name := (c :: r).takeWhile isNameLetter
        (lexemes n ((c :: r).drop name.length)).map (.name (String.ofList name) :: ·)
      else
        match signs.find? fun s => s.toList.isPrefixOf (c :: r) with
        | some s => (lexemes n ((c :: r).drop s.length)).map (.sign s :: ·)
        | none => none

def operator? : String → Option (Operator × Nat)
  | "*" => some (.multiply, 10)
  | "/" => some (.divide, 10)
  | "%" => some (.remainder, 10)
  | "+" => some (.add, 9)
  | "-" => some (.subtract, 9)
  | "<<" => some (.shiftLeft, 8)
  | ">>" => some (.shiftRight, 8)
  | "<" => some (.less, 7)
  | "<=" => some (.lessEqual, 7)
  | ">" => some (.greater, 7)
  | ">=" => some (.greaterEqual, 7)
  | "==" => some (.equal, 6)
  | "!=" => some (.unequal, 6)
  | "&" => some (.bitAnd, 5)
  | "^" => some (.bitXor, 4)
  | "|" => some (.bitOr, 3)
  | _ => none

/-- The operator of a sign that assigns, none if it only assigns. -/
def assigning? : String → Option (Option Operator)
  | "=" => some none
  | "*=" => some (some .multiply)
  | "/=" => some (some .divide)
  | "%=" => some (some .remainder)
  | "+=" => some (some .add)
  | "-=" => some (some .subtract)
  | "<<=" => some (some .shiftLeft)
  | ">>=" => some (some .shiftRight)
  | "&=" => some (some .bitAnd)
  | "^=" => some (some .bitXor)
  | "|=" => some (some .bitOr)
  | _ => none

inductive Level
  | assignment
  | conditional
  | either
  | both
  /-- Operators that bind at least this tightly. -/
  | binary (least : Nat)
  | primary
  deriving DecidableEq, Repr

def unary? : String → Option Unary
  | "+" => some .plus
  | "-" => some .minus
  | "!" => some .not
  | "~" => some .complement
  | _ => none

abbrev ExpressionReader := List Lexeme → Option (Expression × List Lexeme)

def readOperands (operand : Nat → ExpressionReader) (least : Nat) :
    Nat → Expression → ExpressionReader
  | 0, _, _ => none
  | n + 1, a, ls =>
    match ls with
    | .sign s :: r =>
      match operator? s with
      | some (op, level) =>
        if least ≤ level then
          match operand (level + 1) r with
          | some (b, r) => readOperands operand least n (.binary op a b) r
          | none => none
        else some (a, ls)
      | none => some (a, ls)
    | _ => some (a, ls)

def readExpression : Nat → Level → ExpressionReader
  | 0, _, _ => none
  | n + 1, level, ls =>
    let again := readExpression n
    match level with
    | .assignment =>
      match ls with
      | .name x :: .sign s :: r =>
        match assigning? s with
        | some op => (again .assignment r).map fun (e, r) => (.assign x op e, r)
        | none => again .conditional ls
      | _ => again .conditional ls
    | .conditional =>
      match again .either ls with
      | some (test, .sign "?" :: r) =>
        match again .assignment r with
        | some (yes, .sign ":" :: r) =>
          (again .conditional r).map fun (no, r) => (.conditional test yes no, r)
        | _ => none
      | e => e
    | .either =>
      match again .both ls with
      | some (a, .sign "||" :: r) => (again .either r).map fun (b, r) => (.either a b, r)
      | e => e
    | .both =>
      match again (.binary 0) ls with
      | some (a, .sign "&&" :: r) => (again .both r).map fun (b, r) => (.both a b, r)
      | e => e
    | .binary least =>
      match again .primary ls with
      | some (a, r) => readOperands (fun least => again (.binary least)) least (r.length + 1) a r
      | none => none
    | .primary =>
      match ls with
      | .number v :: r => some (.number v, r)
      | .name x :: r => some (.name x, r)
      | .sign "(" :: r =>
        match again .assignment r with
        | some (e, .sign ")" :: r) => some (e, r)
        | _ => none
      | .sign s :: r =>
        match unary? s with
        | some op => (again .primary r).map fun (e, r) => (.unary op e, r)
        | none => none
      | [] => none

inductive ArithmeticFault
  | unfinished
  | surplus
  | divisionByZero
  /-- A parameter that holds no number. -/
  | notNumber (text : String)
  deriving DecidableEq, Repr

def Expression.parse (text : String) : Except ArithmeticFault Expression :=
  match lexemes (text.length + 1) text.toList with
  | some ls =>
    match readExpression (8 * ls.length + 8) .assignment ls with
    | some (e, []) => .ok e
    | some _ => .error .surplus
    | none => .error .unfinished
  | none => .error .surplus

/-! ## Values -/

def truth (b : Bool) : Int :=
  if b then 1 else 0

def Operator.apply? (op : Operator) (a b : Int) : Option Int :=
  match op with
  | .multiply => some (wrap (a * b))
  | .divide => if b = 0 then none else some (wrap (a.tdiv b))
  | .remainder => if b = 0 then none else some (wrap (a.tmod b))
  | .add => some (wrap (a + b))
  | .subtract => some (wrap (a - b))
  | .shiftLeft => some (wrap (a * (1 <<< (b % 64).toNat : Nat)))
  | .shiftRight => some (a / (1 <<< (b % 64).toNat : Nat))
  | .less => some (truth (a < b))
  | .lessEqual => some (truth (a ≤ b))
  | .greater => some (truth (b < a))
  | .greaterEqual => some (truth (b ≤ a))
  | .equal => some (truth (a = b))
  | .unequal => some (truth (a ≠ b))
  | .bitAnd => some (bits a &&& bits b).toInt
  | .bitXor => some (bits a ^^^ bits b).toInt
  | .bitOr => some (bits a ||| bits b).toInt
where
  bits (n : Int) : BitVec 64 := BitVec.ofInt 64 n

def Unary.apply (op : Unary) (a : Int) : Int :=
  match op with
  | .plus => a
  | .minus => wrap (-a)
  | .not => truth (a = 0)
  | .complement => -a - 1

/-- How parameters are looked up and assigned to. -/
structure Parameters (m : Type → Type) where
  get : String → m String
  set : String → Int → m Unit

section
variable {m : Type → Type} [Monad m] [MonadExceptOf ArithmeticFault m] (parameters : Parameters m)

def Expression.evaluate : Expression → m Int
  | .number n => pure n
  | .name x => nameValue x
  | .unary op e => op.apply <$> e.evaluate
  | .binary op a b => do
    let a ← a.evaluate
    let b ← b.evaluate
    apply op a b
  | .both a b => do
    if (← a.evaluate) = 0 then return 0
    return truth ((← b.evaluate) ≠ 0)
  | .either a b => do
    if (← a.evaluate) ≠ 0 then return 1
    return truth ((← b.evaluate) ≠ 0)
  | .conditional test yes no => do
    if (← test.evaluate) ≠ 0 then yes.evaluate else no.evaluate
  | .assign x op e => do
    let n ← match op with
      | none => e.evaluate
      | some op => do
        let a ← nameValue x
        let b ← e.evaluate
        apply op a b
    parameters.set x n
    return n
where
  nameValue (x : String) : m Int := do
    let text ← parameters.get x
    match valueOf? text with
    | some n => return n
    | none => throw (.notNumber text)
  apply (op : Operator) (a b : Int) : m Int := do
    match op.apply? a b with
    | some n => return n
    | none => throw .divisionByZero

end

end TableMigration.Shell
