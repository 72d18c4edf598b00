import TableMigration.Text.Cased
import TableMigration.Text.LowercaseRuns

/-!
# Lower case

Full Unicode lower-casing: every character has its own lower-case form, which for a capital I with
a dot is two characters, and the capital sigma has a final form at the end of a word.
-/

namespace TableMigration.Text

/-- The image of `c` under one run `(first, last, step, image)`. -/
def imageIn (c : Char) (run : Nat × Nat × Nat × Nat) : Option Char :=
  let (first, last, step, image) := run
  if first ≤ c.toNat && c.toNat ≤ last && (c.toNat - first) % step == 0 then
    some (Char.ofNat (image + (c.toNat - first)))
  else none

def lowerChar (c : Char) : List Char :=
  if c = 'İ' then ['i', '\u0307']
  else [(lowercaseRuns.findSome? (imageIn c)).getD c]

/-- Whether a letter with case comes first in `cs`, marks and signs inside words left aside. -/
def meetsCased (cs : List Char) : Bool :=
  match cs.dropWhile isCaseIgnorable with
  | [] => false
  | c :: _ => isCased c

/-- The lower-case sigma between `before`, nearest character first, and `after`. -/
def lowerSigma (before after : List Char) : Char :=
  if meetsCased before && !meetsCased after then 'ς' else 'σ'

def lowerFrom (before : List Char) : List Char → List Char
  | [] => []
  | c :: after =>
    (if c = 'Σ' then [lowerSigma before after] else lowerChar c) ++ lowerFrom (c :: before) after

def lowerChars (cs : List Char) : List Char :=
  lowerFrom [] cs

def lowercase (s : String) : String :=
  String.ofList (lowerChars s.toList)

end TableMigration.Text
