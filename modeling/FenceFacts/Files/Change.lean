import FenceFacts.Files.Tree

/-!
# FenceFacts — changes to a file tree

Writing a file needs its directory and takes the place of an earlier content.
Creating directories goes down a path and makes each one that is missing; it
stops at the first name that it cannot make or pass, and what it has made by
then stays.  A path that cannot be followed changes nothing.
-/

namespace FenceFacts

/-- The file system did not do what it was asked for at this path. -/
structure Refusal where
  path : Text
  deriving DecidableEq, Repr

/-- What changes a file tree. -/
abbrev FileChange := EStateM Refusal FileTree

/-- The longest name that an entry can have, in bytes. -/
def longestName : Nat := 255

def isEntryName (name : Text) : Bool :=
  !name.isEmpty && name.byteLength ≤ longestName && !name.contains '/' && !name.contains '\x00' &&
    name ≠ ['.'] && name ≠ ['.', '.']

namespace FileTree

/-- The tree with a node at a place. -/
def insertAt (t : FileTree) (place : List Text) (node : Node) : FileTree :=
  { t with root := t.root.insert place node }

/-- Makes the directories that components name from a place on. -/
def createBelow (path : Text) : List Text → List PathComponent → FileChange Unit
  | _, [] => return
  | _, .root :: rest => createBelow path [] rest
  | place, .here :: rest => createBelow path place rest
  | place, .parent :: rest => createBelow path place.dropLast rest
  | place, .name name :: rest => do
    match (← get).nodeAt? (place ++ [name]) with
    | some (.directory _) => createBelow path (place ++ [name]) rest
    | some (.file _) => throw ⟨path⟩
    | none =>
      if !isEntryName name then throw ⟨path⟩
      modify (·.insertAt (place ++ [name]) (.directory .nil))
      createBelow path (place ++ [name]) rest

/-- Makes the directory that holds `path`, and those above it. -/
def createParents (path : Text) : FileChange Unit := do
  match Path.parent? path with
  | some parent =>
    if !Path.isFollowable parent then throw ⟨path⟩
    createBelow path (← get).working (Path.components parent)
  | none => return

/-- The place where a file at `path` can be written: its directory is there,
and it is no directory itself. -/
def filePlace? (t : FileTree) (path : Text) : Option (List Text) := do
  if !Path.isFollowable path then failure
  let name ← (pieces path).getLast?
  if !isEntryName name then failure
  let directory ← (pieces path).dropLast.foldlM t.enter? (t.start path)
  let entries ← (← t.nodeAt? directory).entries?
  if ((entries.find? name).bind Node.entries?).isSome then failure
  return directory ++ [name]

def write (path : Text) (bytes : List UInt8) : FileChange Unit := do
  match (← get).filePlace? path with
  | some place => modify (·.insertAt place (.file bytes))
  | none => throw ⟨path⟩

end FileTree

end FenceFacts
