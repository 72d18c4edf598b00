import TableMigration.FileSystem
import TableMigration.Ordered

/-!
# A file system in memory

Files and directories under the components of their paths. Adding a file or directory links it
into its parent, which is made if it is not there; a file may have entries below it all the same.
Directories list names that are texts, and no others.
-/

namespace TableMigration

inductive TreeEntry
  | file (content : ByteArray)
  /-- A directory with the names of its entries, in ascending order. -/
  | directory (children : List String)
  deriving DecidableEq

structure Tree where
  entries : List (List Component × TreeEntry)
  rejectsAppends : Bool

namespace Tree

def empty : Tree :=
  ⟨[([.here], .directory [])], false⟩

def find? (tree : Tree) (key : List Component) : Option TreeEntry :=
  tree.entries.lookup key

def put (tree : Tree) (key : List Component) (entry : TreeEntry) : Tree :=
  { tree with entries := (key, entry) :: tree.entries.filter (·.1 ≠ key) }

/-- The key of the directory that holds the path `above`, last component first, with one more
component. -/
def parentKey (above : List Component) : List Component :=
  if above = [] then [.here] else above.reverse

/-- The text of the name that ends a path, which bytes that are no text do not have. -/
def nameText? : Component → Option String
  | .name n => Text.read? n
  | _ => none

def addChild (tree : Tree) (key : List Component) (c : Component) : Tree :=
  match tree.find? key, nameText? c with
  | some (.directory children), some n => tree.put key (.directory (Ordered.insertKey n children))
  | _, _ => tree

/-- Makes the path with these components, last one first, known to the directories above it. The
root has none, and the working directory is its own. -/
def link (tree : Tree) : List Component → Tree
  | [] => tree
  | c :: above =>
    if c = .root || (c = .here && above = []) then tree
    else
      let key := parentKey above
      let tree := if (tree.find? key).isSome then tree else link (tree.put key (.directory [])) above
      tree.addChild key c

def addFile (tree : Tree) (p : Path) (content : ByteArray) : Tree :=
  (tree.put p.components (.file content)).link p.components.reverse

def addDirectory (tree : Tree) (p : Path) : Tree :=
  let key := p.components
  (if (tree.find? key).isSome then tree else tree.put key (.directory [])).link key.reverse

def rejectAppends (tree : Tree) (on : Bool) : Tree :=
  { tree with rejectsAppends := on }

def readText (tree : Tree) (p : Path) : Except FileError String :=
  match tree.find? p.components with
  | some (.file content) => (Text.decode content).mapError .notText
  | some (.directory _) => .error (.isDirectory p)
  | none => .error (.notFound p)

def appendLine (tree : Tree) (p : Path) (line : String) : Tree × Except FileError Unit :=
  if tree.rejectsAppends then (tree, .error (.appendRejected p))
  else
    let added := (line ++ "\n").toUTF8
    match tree.find? p.components with
    | some (.file content) => (tree.put p.components (.file (content ++ added)), .ok ())
    | some (.directory _) => (tree, .error (.isDirectory p))
    | none => (tree.addFile p added, .ok ())

def isFile (tree : Tree) (p : Path) : Bool :=
  match tree.find? p.components with
  | some (.file _) => true
  | _ => false

def isDirectory (tree : Tree) (p : Path) : Bool :=
  match tree.find? p.components with
  | some (.directory _) => true
  | _ => false

def list (tree : Tree) (p : Path) : Except FileError (List Path) :=
  match tree.find? p.components with
  | some (.directory children) => .ok (children.map fun n => p.join (Text.encode n))
  | _ => .error (.notDirectory p)

instance : FileSystem Tree where
  readText := readText
  appendLine := appendLine
  isFile := isFile
  isDirectory := isDirectory
  holds tree p := (tree.find? p.components).isSome
  list := list

end Tree

end TableMigration
