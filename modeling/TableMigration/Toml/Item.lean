/-!
# TOML documents

The items of a document, and how its lines build up its tables: a key may be set once, a table may
be opened once by a header, dotted keys extend only tables made by dotted keys, and inline tables
and arrays are closed.
-/

namespace TableMigration.Toml

/-- What made a table: the path of another header, a dotted key, or a header of its own. -/
inductive Origin
  | implied
  | dotted
  | header
  deriving DecidableEq, Repr

/-- Values that the program never reads are known by their kind only. -/
inductive Item
  | text (s : String)
  /-- What is written like an integer need not have a value. -/
  | integer (value : Option Int)
  /-- A floating-point number may be too great to be one. -/
  | float (isFinite : Bool)
  | boolean (b : Bool)
  | moment
  | array (items : List Item)
  | inlineTable (entries : List (String × Item))
  | table (origin : Origin) (entries : List (String × Item))
  /-- An array whose elements were opened by headers. -/
  | tables (elements : List (List (String × Item)))

abbrev Entries := List (String × Item)

def replace (key : String) (item : Item) (entries : Entries) : Entries :=
  entries.map fun e => if e.1 = key then (key, item) else e

/-- Sets a key that is not set yet under a path of dotted keys. The path may lead through the last
element of an array of tables, but not end there. -/
def addAt (key : String) (item : Item) : List String → Entries → Option Entries
  | [], entries => if (entries.lookup key).isSome then none else some (entries ++ [(key, item)])
  | p :: path, entries =>
    match entries.lookup p with
    | none => (addAt key item path []).map fun sub => entries ++ [(p, .table .dotted sub)]
    | some (.table origin sub) =>
      if origin = .header || (path.isEmpty && origin ≠ .dotted) then none
      else (addAt key item path sub).map fun sub => replace p (.table origin sub) entries
    | some (.tables elements) =>
      match path, elements.getLast? with
      | _ :: _, some last =>
        (addAt key item path last).map fun last =>
          replace p (.tables (elements.dropLast ++ [last])) entries
      | _, _ => none
    | some _ => none

/-- Changes the table under the path of a header, through the last element of each array of
tables on the way. -/
def within (change : Entries → Option Entries) : List String → Entries → Option Entries
  | [], entries => change entries
  | p :: path, entries =>
    match entries.lookup p with
    | none => (within change path []).map fun sub => entries ++ [(p, .table .implied sub)]
    | some (.table origin sub) =>
      (within change path sub).map fun sub => replace p (.table origin sub) entries
    | some (.tables elements) =>
      match elements.getLast? with
      | none => none
      | some last =>
        (within change path last).map fun last =>
          replace p (.tables (elements.dropLast ++ [last])) entries
    | some _ => none

def openTable (key : String) (entries : Entries) : Option Entries :=
  match entries.lookup key with
  | none => some (entries ++ [(key, .table .header [])])
  | some (.table .implied sub) => some (replace key (.table .header sub) entries)
  | some _ => none

def openElement (key : String) (entries : Entries) : Option Entries :=
  match entries.lookup key with
  | none => some (entries ++ [(key, .tables [[]])])
  | some (.tables elements) => some (replace key (.tables (elements ++ [[]])) entries)
  | some _ => none

mutual

def Item.hasValue : Item → Bool
  | .integer value => value.isSome
  | .float isFinite => isFinite
  | .array items => allHaveValues items
  | .inlineTable entries | .table _ entries => entriesHaveValues entries
  | .tables elements => elementsHaveValues elements
  | .text _ | .boolean _ | .moment => true

def allHaveValues : List Item → Bool
  | [] => true
  | item :: items => item.hasValue && allHaveValues items

def entriesHaveValues : List (String × Item) → Bool
  | [] => true
  | (_, item) :: entries => item.hasValue && entriesHaveValues entries

def elementsHaveValues : List (List (String × Item)) → Bool
  | [] => true
  | entries :: elements => entriesHaveValues entries && elementsHaveValues elements

end

end TableMigration.Toml
