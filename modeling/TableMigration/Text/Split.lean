/-!
# Trimming and cutting a text

A blank is a character with the Unicode property White_Space; `trim` removes the blanks at both ends of
a text and no others. A text is cut into pieces between the occurrences of a separator, or into lines. A
line ends at a line feed, and a carriage return just before the line feed belongs to the line end. What
follows the last line feed is a line too, unless it is empty, and keeps its carriage return.
-/

namespace TableMigration.Text

def isBlank (c : Char) : Bool :=
  let n := c.toNat
  (0x09 ≤ n && n ≤ 0x0D) || n == 0x20 || n == 0x85 || n == 0xA0 || n == 0x1680 ||
    (0x2000 ≤ n && n ≤ 0x200A) || n == 0x2028 || n == 0x2029 || n == 0x202F || n == 0x205F ||
    n == 0x3000

def trimStart (cs : List Char) : List Char :=
  cs.dropWhile isBlank

def trimEnd (cs : List Char) : List Char :=
  (trimStart cs.reverse).reverse

def trimChars (cs : List Char) : List Char :=
  trimEnd (trimStart cs)

def trim (s : String) : String :=
  String.ofList (trimChars s.toList)

def isAllBlank (s : String) : Bool :=
  s.toList.all isBlank

section
variable {α : Type} [DecidableEq α]

/-- The pieces between the occurrences of `sep`; there is always one. -/
def pieces (sep : α) : List α → List (List α)
  | [] => [[]]
  | c :: cs =>
    if c = sep then [] :: pieces sep cs
    else
      match pieces sep cs with
      | [] => [[c]]
      | p :: ps => (c :: p) :: ps

def splitOnce (sep : α) : List α → Option (List α × List α)
  | [] => none
  | c :: cs =>
    if c = sep then some ([], cs)
    else (splitOnce sep cs).map fun p => (c :: p.1, p.2)

theorem splitOnce_eq_some_iff {sep : α} {cs before after : List α} :
    splitOnce sep cs = some (before, after) ↔ cs = before ++ sep :: after ∧ sep ∉ before := by
  induction cs generalizing before with
  | nil => simp [splitOnce]
  | cons c cs ih =>
    unfold splitOnce
    split
    next h =>
      subst h
      cases before with
      | nil => simp
      | cons b bs => simp; grind
    next h =>
      cases before with
      | nil => simp; grind
      | cons b bs =>
        simp only [Option.map_eq_some_iff, Prod.exists, Prod.mk.injEq, List.cons.injEq,
          List.cons_append, List.mem_cons, not_or]
        constructor
        · rintro ⟨x, y, hxy, ⟨rfl, rfl⟩, rfl⟩
          have hx := ih.mp hxy
          exact ⟨⟨rfl, hx.1⟩, Ne.symm h, hx.2⟩
        · rintro ⟨⟨rfl, hcs⟩, _, hbs⟩
          exact ⟨bs, after, ih.mpr ⟨hcs, hbs⟩, ⟨rfl, rfl⟩, rfl⟩

end

def dropReturn : List Char → List Char
  | [] => []
  | c :: cs => if c = '\r' then cs else c :: cs

/-- The lines of a text of which `line`, reversed, has already been read. -/
def linesFrom (line : List Char) : List Char → List (List Char)
  | [] => if line = [] then [] else [line.reverse]
  | c :: cs =>
    if c = '\n' then (dropReturn line).reverse :: linesFrom [] cs
    else linesFrom (c :: line) cs

def lineChars (cs : List Char) : List (List Char) :=
  linesFrom [] cs

def lines (s : String) : List String :=
  (lineChars s.toList).map String.ofList

end TableMigration.Text
