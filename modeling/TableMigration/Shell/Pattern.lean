/-!
# Patterns

A star stands for any text, a question mark for one character and brackets for one of a set. A
character that was quoted stands for itself, and so does one after a backslash.
-/

namespace TableMigration.Shell

/-- A character of a text that may be a pattern. -/
structure Letter where
  char : Char
  /-- Whether it stands for itself. -/
  plain : Bool
  deriving DecidableEq, Repr

inductive PatternPart
  | text
  | one (test : Char → Bool)

abbrev Pattern := List PatternPart

def Pattern.matches : Pattern → List Char → Bool
  | [], cs => cs.isEmpty
  | .text :: p, cs => (List.range (cs.length + 1)).any fun n => Pattern.matches p (cs.drop n)
  | .one test :: p, c :: cs => test c && Pattern.matches p cs
  | .one _ :: _, [] => false

def characterClass (name : String) (c : Char) : Bool :=
  match name with
  | "alnum" => c.isAlphanum
  | "alpha" => c.isAlpha
  | "blank" => c == ' ' || c == '\t'
  | "cntrl" => c.toNat < 32 || c.toNat == 127
  | "digit" => c.isDigit
  | "graph" => 32 < c.toNat && c.toNat < 127
  | "lower" => c.isLower
  | "print" => 32 ≤ c.toNat && c.toNat < 127
  | "punct" => 32 < c.toNat && c.toNat < 127 && !c.isAlphanum
  | "space" => c == ' ' || (9 ≤ c.toNat && c.toNat ≤ 13)
  | "upper" => c.isUpper
  | "xdigit" => c.isDigit || ('a' ≤ c && c ≤ 'f') || ('A' ≤ c && c ≤ 'F')
  | _ => false

def className : List Letter → Option (String × List Letter)
  | ⟨':', _⟩ :: ⟨']', _⟩ :: r => some ("", r)
  | l :: r =>
    if l.char.isAlpha then (className r).map fun (n, r) => (l.char.toString ++ n, r) else none
  | [] => none

def bracketTests : Nat → Bool → List Letter → Option (List (Char → Bool) × List Letter)
  | 0, _, _ => none
  | _ + 1, _, [] => none
  | n + 1, first, l :: r =>
    if l.char = ']' && !l.plain && !first then some ([], r)
    else
      let classed := match l, r with
        | ⟨'[', false⟩, ⟨':', false⟩ :: r => className r
        | _, _ => none
      match classed, r with
      | some (name, r), _ =>
        (bracketTests n false r).map fun (ts, r) => (characterClass name :: ts, r)
      | none, ⟨'-', false⟩ :: high :: r' =>
        if high.char = ']' && !high.plain then
          (bracketTests n false r).map fun (ts, r) => ((· == l.char) :: ts, r)
        else
          (bracketTests n false r').map fun (ts, r) =>
            ((fun c => decide (l.char ≤ c) && decide (c ≤ high.char)) :: ts, r)
      | none, _ => (bracketTests n false r).map fun (ts, r) => ((· == l.char) :: ts, r)

def brackets? (ls : List Letter) : Option ((Char → Bool) × List Letter) :=
  let negated := match ls with
    | ⟨c, false⟩ :: _ => c = '!' || c = '^'
    | _ => false
  let inner := if negated then ls.drop 1 else ls
  (bracketTests (ls.length + 1) true inner).map fun (tests, rest) =>
    (fun c => (tests.any fun test => test c) != negated, rest)

def Pattern.ofLetters (ls : List Letter) : Pattern :=
  go ls.length ls
where
  go : Nat → List Letter → Pattern
    | 0, _ => []
    | _, [] => []
    | n + 1, l :: r =>
      if l.plain then .one (· == l.char) :: go n r
      else
        match l.char with
        | '*' => .text :: go n r
        | '?' => .one (fun _ => true) :: go n r
        | '\\' =>
          match r with
          | [] => [.one (· == '\\')]
          | next :: r => .one (· == next.char) :: go n r
        | '[' =>
          match brackets? r with
          | some (test, rest) => .one test :: go n rest
          | none => .one (· == '[') :: go n r
        | c => .one (· == c) :: go n r

def isPattern (ls : List Letter) : Bool :=
  ls.any fun l => !l.plain && (l.char = '*' || l.char = '?' || l.char = '[')

/-- What is left of a text without its shortest or longest piece at the start that matches. -/
def cutStart (p : Pattern) (longest : Bool) (cs : List Char) : List Char :=
  let ends := (List.range (cs.length + 1)).filter fun n => p.matches (cs.take n)
  match if longest then ends.getLast? else ends.head? with
  | some n => cs.drop n
  | none => cs

/-- What is left of a text without its shortest or longest piece at the end that matches. -/
def cutEnd (p : Pattern) (longest : Bool) (cs : List Char) : List Char :=
  let starts := (List.range (cs.length + 1)).filter fun n => p.matches (cs.drop n)
  match if longest then starts.head? else starts.getLast? with
  | some n => cs.take n
  | none => cs

end TableMigration.Shell
