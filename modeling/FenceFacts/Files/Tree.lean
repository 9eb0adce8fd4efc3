import FenceFacts.Path

/-!
# FenceFacts — file trees

Files are held by a tree: a node is a file with its bytes or a directory with
its entries.  A *place* is the list of names that leads from the root to a
node; it has neither dots nor slashes.  One place is the working directory,
where relative paths start.

A path is followed piece by piece.  A dot stays, two dots go up, and a name
goes to the entry of that name.  Every piece needs a directory to stand in,
also a dot, so a path that goes on after a file leads nowhere.  A final slash
counts as a dot.  The empty path leads nowhere, and so does one that is too
long to be followed.
-/

namespace FenceFacts

mutual

/-- A file or a directory. -/
inductive Node
  | file (bytes : List UInt8)
  | directory (entries : Entries)

/-- The entries of a directory, in the order in which it lists them. -/
inductive Entries
  | nil
  | cons (name : Text) (node : Node) (rest : Entries)

end

namespace Entries

def find? (name : Text) : Entries → Option Node
  | nil => none
  | cons n node rest => if n = name then some node else rest.find? name

/-- The entries with the one of this name replaced, or with a new last one. -/
def set (name : Text) (node : Node) : Entries → Entries
  | nil => cons name node nil
  | cons n old rest => if n = name then cons n node rest else cons n old (set name node rest)

theorem find?_set_self (name : Text) (node : Node) (entries : Entries) :
    (entries.set name node).find? name = some node := by
  cases entries with
  | nil => simp [set, find?]
  | cons n old rest =>
    by_cases h : n = name
    · simp [set, find?, h]
    · simp only [set, if_neg h, find?]
      exact find?_set_self name node rest

theorem find?_set_of_ne {name other : Text} (h : other ≠ name) (node : Node) (entries : Entries) :
    (entries.set name node).find? other = entries.find? other := by
  cases entries with
  | nil => simp [set, find?, Ne.symm h]
  | cons n old rest =>
    by_cases hn : n = name
    · subst hn
      simp [set, find?, Ne.symm h]
    · simp only [set, if_neg hn, find?]
      rw [find?_set_of_ne h node rest]

end Entries

namespace Node

def entries? : Node → Option Entries
  | file _ => none
  | directory entries => some entries

def bytes? : Node → Option (List UInt8)
  | file bytes => some bytes
  | directory _ => none

/-- The node at a place. -/
def descend? : Node → List Text → Option Node
  | node, [] => some node
  | directory entries, name :: place => (entries.find? name).bind (descend? · place)
  | file _, _ :: _ => none

/-- The node with `new` at a place.  Directories that are missing on the way
appear; behind a file there is no place. -/
def insert : Node → List Text → Node → Node
  | _, [], new => new
  | directory entries, name :: place, new =>
    let old := (entries.find? name).getD (directory .nil)
    directory (entries.set name (insert old place new))
  | file bytes, _ :: _, _ => file bytes

end Node

-- ---------------------------------------------------------------------------
-- All files
-- ---------------------------------------------------------------------------

mutual

/-- The paths of all files of a node that is itself at `path`.  A directory
whose path is too long to be followed is taken for a file. -/
def Node.files (path : Text) : Node → List Text
  | .file _ => [path]
  | .directory entries => if Path.isFollowable path then Entries.files path entries else [path]

/-- The paths of all files below a directory. -/
def Entries.files (directory : Text) : Entries → List Text
  | .nil => []
  | .cons name node rest =>
    Node.files (Path.join directory name) node ++ Entries.files directory rest

end

-- ---------------------------------------------------------------------------
-- Trees
-- ---------------------------------------------------------------------------

/-- A tree and the place where relative paths start. -/
structure FileTree where
  root : Node := .directory .nil
  working : List Text := []

namespace FileTree

/-- The node at a place. -/
def nodeAt? (t : FileTree) (place : List Text) : Option Node := t.root.descend? place

/-- From a directory on by one piece of a path. -/
def enter? (t : FileTree) (place : List Text) (piece : Text) : Option (List Text) := do
  let entries ← (← t.nodeAt? place).entries?
  if piece = ['.'] then return place
  if piece = ['.', '.'] then return place.dropLast
  let _ ← entries.find? piece
  return place ++ [piece]

/-- The pieces that lead along a path; a final slash is one. -/
def pieces (path : Text) : List Text :=
  Path.segments path ++ if path.getLast? = some '/' then [['.']] else []

/-- Where a path starts. -/
def start (t : FileTree) (path : Text) : List Text :=
  if Path.isAbsolute path then [] else t.working

def place? (t : FileTree) (path : Text) : Option (List Text) :=
  if path.isEmpty || !Path.isFollowable path then none
  else (pieces path).foldlM t.enter? (t.start path)

def node? (t : FileTree) (path : Text) : Option Node := (t.place? path).bind t.nodeAt?

def has (t : FileTree) (path : Text) : Bool := (t.node? path).isSome

def entries? (t : FileTree) (path : Text) : Option Entries := (t.node? path).bind Node.entries?

def isDirectory (t : FileTree) (path : Text) : Bool := (t.entries? path).isSome

def bytes? (t : FileTree) (path : Text) : Option (List UInt8) := (t.node? path).bind Node.bytes?

end FileTree

end FenceFacts
