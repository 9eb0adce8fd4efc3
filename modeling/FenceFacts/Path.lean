import FenceFacts.Text

/-!
# FenceFacts — paths

A path is a text; what it means is the list of its components.  Slashes
separate them, however many stand together, and a final one adds nothing.  A
leading slash is the root.  A dot says "here": it is a component only where
the path starts with it.  Two dots are kept, for what they lead to is up to
the file system.

Paths are compared component by component, and the texts of components
character by character.
-/

namespace FenceFacts

inductive PathComponent
  | root
  | here
  | parent
  | name (n : Text)
  deriving DecidableEq, Repr

namespace PathComponent

/-- The root comes first and names come last. -/
def rank : PathComponent → Nat
  | root => 0
  | here => 1
  | parent => 2
  | name _ => 3

/-- Not after: by rank, and among names by their texts. -/
def le : PathComponent → PathComponent → Bool
  | name m, name n => !List.lex n m
  | a, b => a.rank ≤ b.rank

/-- Strictly before. -/
def lt (a b : PathComponent) : Bool := !le b a

/-- The component that a piece between slashes is; a dot is none. -/
def ofSegment? (segment : Text) : Option PathComponent :=
  if segment = ['.'] then none
  else if segment = ['.', '.'] then some parent
  else some (name segment)

/-- How the component is written in a relative path. -/
def written? : PathComponent → Option Text
  | root | here => none
  | parent => some ['.', '.']
  | name n => some n

end PathComponent

namespace Path

/-- The pieces between slashes that are not empty. -/
def segments (path : Text) : List Text := (path.splitOn '/').filter (!·.isEmpty)

def isAbsolute (path : Text) : Bool := path.head? == some '/'

/-- The components of a path. -/
def components (path : Text) : List PathComponent :=
  let start :=
    if isAbsolute path then [PathComponent.root]
    else if (segments path).head? = some ['.'] then [.here]
    else []
  start ++ (segments path).filterMap PathComponent.ofSegment?

/-- Component-wise order: a path comes before those it is the start of. -/
def leComponents (a b : List PathComponent) : Bool := !List.lex b a PathComponent.lt

/-- The order in which paths are listed. -/
def le (p q : Text) : Bool := leComponents (components p) (components q)

/-- The path of an entry of a directory. -/
def join (directory name : Text) : Text :=
  if directory.isEmpty || directory.getLast? == some '/' then directory ++ name
  else directory ++ '/' :: name

/-- The last component, if it is a name. -/
def fileName? (path : Text) : Option Text :=
  match (components path).getLast? with
  | some (.name n) => some n
  | _ => none

/-- What follows the last dot of the file name, unless that dot comes first. -/
def extension? (path : Text) : Option Text := do
  let name ← fileName? path
  let stem := name.reverse.dropWhile (· ≠ '.')
  if stem.length ≤ 1 then none else some (name.drop stem.length)

/-- The components of `path` below `root`. -/
def below? (root path : Text) : Option (List PathComponent) :=
  (components root).isPrefixOf? (components path)

/-- Components as one relative path; the root has no place in it. -/
def relative? (components : List PathComponent) : Option Text :=
  if .root ∈ components then none
  else some (['/'].intercalate (components.filterMap PathComponent.written?))

/-- A path, read from its end, without slashes and dots that add nothing
there.  A leading slash stays. -/
def trimBack : Text → Text
  | '/' :: t => if t.isEmpty then ['/'] else trimBack t
  | '.' :: '/' :: t => if t.isEmpty then ['/'] else trimBack t
  | t => t

/-- The path of the directory that holds `path`: all that stands before its
last component. -/
def parent? (path : Text) : Option Text :=
  let backwards := trimBack path.reverse
  if backwards = [] ∨ backwards = ['/'] then none
  else some (trimBack (backwards.dropWhile (· ≠ '/'))).reverse

/-- The longest path that can be followed, in bytes. -/
def longest : Nat := 4095

/-- Whether a path can be followed at all, wherever it leads. -/
def isFollowable (path : Text) : Bool := path.byteLength ≤ longest && !path.contains '\x00'

end Path

end FenceFacts
