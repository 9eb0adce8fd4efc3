import FenceFacts.Markdown.Block
import FenceFacts.Path
import FenceFacts.Position

/-!
# FenceFacts — documents

A document is a text and the source it is reported as: a path relative to
the place the documents were taken from.  Offsets into a document have lines
and columns; offsets past its end count as the end, and an offset inside a
character has none.
-/

namespace FenceFacts

-- ---------------------------------------------------------------------------
-- Sources
-- ---------------------------------------------------------------------------

/-- What a document is reported as. -/
structure Source where
  path : Text
  deriving DecidableEq, Repr

namespace Source

protected def toString (s : Source) : String := String.ofList s.path

instance : ToString Source := ⟨Source.toString⟩

def withoutEnding? (ending : String) (t : Text) : Option Text :=
  ending.toList.isSuffixOf? t

/-- The last piece of the reported path that is more than a dot. -/
def fileName? (s : Source) : Option Text :=
  match ((Path.segments s.path).filter (· ≠ ['.'])).getLast? with
  | some n => if n = ['.', '.'] then none else some n
  | none => none

/-- The file name without its Markdown extension. -/
def name (s : Source) : Text :=
  match s.fileName? with
  | some n => (withoutEnding? ".md" n <|> withoutEnding? ".markdown" n).getD n
  | none => "Untitled".toList

/-- What the file at `path` is reported as when it was found below `root`:
its path from there.  A path that is not below `root` is kept if it is
relative and cut to its file name otherwise. -/
def ofFile (path : Text) (root : Option Text) : Source :=
  let components :=
    (root.bind (Path.below? · path)) <|>
      (if Path.isAbsolute path then none else some (Path.components path))
  ⟨((components.bind Path.relative?) <|> Path.fileName? path).getD []⟩

end Source

-- ---------------------------------------------------------------------------
-- Documents
-- ---------------------------------------------------------------------------

structure Document where
  source : Source
  text : Text
  deriving DecidableEq, Repr

namespace Document

def positionOf (d : Document) (offset : Nat) : Except Fault Position :=
  match d.text.walk offset .first with
  | some p => .ok p
  | none => .error .badOffset

/-- One-based line of an offset. -/
def lineOf (d : Document) (offset : Nat) : Except Fault Nat :=
  (d.positionOf offset).map (·.line)

def scan (d : Document) : BlockScan := scanBlocks d.text

/-- Lines from the one that the line feed before a fence ends to the first
one of the block's content: that line itself and the fence. -/
def linesToContent : Nat := 2

/-- Where positions of a block's content are anchored: at its first
character.  The fence that opens a document has no line before it; its block
is anchored one line further down. -/
def anchor (d : Document) (b : Block) : Except Fault Position := do
  let line ← d.lineOf (b.breakBefore?.getD 0)
  let line ← Position.sum line linesToContent
  return ⟨line, 1⟩

end Document

end FenceFacts
