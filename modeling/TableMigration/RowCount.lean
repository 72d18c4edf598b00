import TableMigration.Action
import TableMigration.Text.Split

/-!
# Row counts

A validate script prints the number of rows on its last line that is not blank: an optional plus sign
and decimal digits, with a value of at most 64 bits. Counts are kept by table, warehouse and unit, and
the latest one counts.
-/

namespace TableMigration

namespace Text

def digitsValue (value : Nat) (cs : List Char) : Nat :=
  cs.foldl (fun v c => v * 10 + (c.toNat - '0'.toNat)) value

def dropPlus : List Char → List Char
  | [] => []
  | c :: cs => if c = '+' then cs else c :: cs

def readUnsigned (cs : List Char) : Option Nat :=
  let digits := dropPlus cs
  if digits = [] || !digits.all Char.isDigit then none
  else
    let value := digitsValue 0 digits
    if value < UInt64.size then some value else none

end Text

inductive RowCountError
  | noOutput
  | notACount (line : String)
  deriving DecidableEq, Repr

def RowCountError.message : RowCountError → String
  | .noOutput => "no output"
  | .notACount line => "'" ++ line ++ "' is not a row count"

def readRowCount (output : String) : Except RowCountError Nat :=
  match ((Text.lines output).map Text.trim).reverse.find? (· ≠ "") with
  | none => .error .noOutput
  | some line =>
    match Text.readUnsigned line.toList with
    | some n => .ok n
    | none => .error (.notACount line)

structure CountKey where
  task : String
  side : Warehouse
  unit : String
  deriving DecidableEq, Repr

/-- Every count recorded, latest first. -/
structure RowCounts where
  history : List (CountKey × Nat)
  deriving DecidableEq, Repr

namespace RowCounts

def empty : RowCounts := ⟨[]⟩

def record (counts : RowCounts) (key : CountKey) (n : Nat) : RowCounts :=
  ⟨(key, n) :: counts.history⟩

def get? (counts : RowCounts) (key : CountKey) : Option Nat :=
  counts.history.lookup key

theorem get?_record (counts : RowCounts) (key other : CountKey) (n : Nat) :
    (counts.record key n).get? other = if other = key then some n else counts.get? other := by
  unfold record get?
  rw [List.lookup_cons]
  by_cases h : other = key
  · subst h; simp
  · simp [h, beq_eq_false_iff_ne.mpr h]

end RowCounts

end TableMigration
