import FenceFacts.Markdown.Fence
import FenceFacts.Span

/-!
# FenceFacts — script blocks

The fenced JavaScript blocks of a Markdown text, in order.  The text is read
line by line.  Outside a block, a fence with a JavaScript tag opens one,
provided its line is ended by a line feed; everything else is passed over,
other fences included.  Inside a block, the first fence of any kind closes
it.  A block that is never closed is none.

Every block knows its place: the span from its opening to its closing fence
line, the offset its content starts at, and the offset of the line feed right
before its opening fence, if it does not open the text.
-/

namespace FenceFacts

-- ---------------------------------------------------------------------------
-- Lines with their spans
-- ---------------------------------------------------------------------------

/-- A line, line feed included, and where it lies. -/
structure SpannedLine where
  span : Span
  text : Text
  deriving DecidableEq, Repr

/-- The lines one behind the other, from byte `start` on. -/
def spanLines (start : Nat) : List Text → List SpannedLine
  | [] => []
  | l :: ls => ⟨⟨start, start + l.byteLength⟩, l⟩ :: spanLines (start + l.byteLength) ls

def spannedLines (t : Text) : List SpannedLine := spanLines 0 t.lines

-- ---------------------------------------------------------------------------
-- Blocks
-- ---------------------------------------------------------------------------

/-- A fenced JavaScript block. -/
structure Block where
  /-- The lines between the fences. -/
  content : Text
  /-- Offset of the first byte of the content. -/
  start : Nat
  /-- Offset of the line feed before the opening fence. -/
  breakBefore? : Option Nat
  /-- From the opening fence line to the closing one, both included. -/
  span : Span
  tag : ScriptTag
  info : Text
  deriving DecidableEq, Repr

namespace Block

def contentSpan (b : Block) : Span := ⟨b.start, b.start + b.content.byteLength⟩

/-- The block holds nothing worth extracting.  Blanks beyond ASCII count as
content. -/
def isBlank (b : Block) : Bool := b.content.isBlank

end Block

/-- A block whose closing fence is still to come. -/
structure OpenBlock where
  opener : Span
  tag : ScriptTag
  info : Text
  content : Text := []
  deriving DecidableEq, Repr

namespace OpenBlock

def ofLine? (l : SpannedLine) : Option OpenBlock :=
  if l.text.isTerminated then
    match Fence.ofLine? l.text with
    | some ⟨info, some tag⟩ => some { opener := l.span, tag, info }
    | _ => none
  else none

def push (b : OpenBlock) (line : Text) : OpenBlock := { b with content := b.content ++ line }

/-- The block that the fence line at `closer` closes. -/
def close (b : OpenBlock) (closer : Span) : Block where
  content := b.content
  start := b.opener.stop
  breakBefore? := if b.opener.start = 0 then none else some (b.opener.start - 1)
  span := b.opener.cover closer
  tag := b.tag
  info := b.info

end OpenBlock

-- ---------------------------------------------------------------------------
-- Scanning
-- ---------------------------------------------------------------------------

/-- The blocks of a text, and the fence line that was still open at its end. -/
structure BlockScan where
  blocks : List Block
  unclosed? : Option Span
  deriving DecidableEq, Repr

/-- Reads on with the block `current`, or outside of any. -/
def scanLines (current : Option OpenBlock) : List SpannedLine → BlockScan
  | [] => ⟨[], current.map (·.opener)⟩
  | l :: ls =>
    match current with
    | none => scanLines (OpenBlock.ofLine? l) ls
    | some b =>
      match Fence.ofLine? l.text with
      | some _ =>
        let later := scanLines none ls
        { later with blocks := b.close l.span :: later.blocks }
      | none => scanLines (some (b.push l.text)) ls

def scanBlocks (t : Text) : BlockScan := scanLines none (spannedLines t)

end FenceFacts
