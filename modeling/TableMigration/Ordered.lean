/-!
# Lists in ascending order

Sets and maps are kept as lists in ascending order of their elements or keys, each at most once.
`insertKey` and `insert` keep a list so.
-/

namespace TableMigration.Ordered

section
variable {κ α : Type} [LT κ] [DecidableLT κ] [DecidableEq κ]

def insertKey (k : κ) : List κ → List κ
  | [] => [k]
  | x :: xs => if k < x then k :: x :: xs else if k = x then x :: xs else x :: insertKey k xs

def ofKeys (ks : List κ) : List κ :=
  ks.foldr insertKey []

def alter (k : κ) (f : Option α → α) : List (κ × α) → List (κ × α)
  | [] => [(k, f none)]
  | (x, v) :: xs =>
    if k < x then (k, f none) :: (x, v) :: xs
    else if k = x then (x, f (some v)) :: xs
    else (x, v) :: alter k f xs

def insert (k : κ) (v : α) : List (κ × α) → List (κ × α) :=
  alter k fun _ => v

def find? (k : κ) : List (κ × α) → Option α
  | [] => none
  | (x, v) :: xs => if k = x then some v else find? k xs

theorem mem_insertKey {k x : κ} {xs : List κ} : x ∈ insertKey k xs ↔ x = k ∨ x ∈ xs := by
  induction xs with
  | nil => simp [insertKey]
  | cons y ys ih =>
    unfold insertKey
    split
    next => simp
    next =>
      split
      next h => simp [h]
      next => simp only [List.mem_cons, ih]; grind

theorem mem_ofKeys {x : κ} {ks : List κ} : x ∈ ofKeys ks ↔ x ∈ ks := by
  induction ks with
  | nil => simp [ofKeys]
  | cons k ks ih =>
    unfold ofKeys at ih ⊢
    simp [mem_insertKey, ih]

end

end TableMigration.Ordered
