import FenceFacts.Position

/-!
# FenceFacts — line index

The lines of a snippet with the offset each one starts at, so that offsets
can be turned into lines and columns without reading the snippet again.  A
snippet that ends with a line feed has an empty line behind it, where the end
of the snippet lies; it does not count as one of the snippet's lines.
-/

namespace FenceFacts

/-- A line, terminator included, and the offset of its first byte. -/
structure IndexedLine where
  start : Nat
  raw : Text
  deriving DecidableEq, Repr

namespace IndexedLine

/-- The line without its terminator. -/
def text (l : IndexedLine) : Text := l.raw.withoutTerminator

def terminator (l : IndexedLine) : Text := l.raw.terminator

/-- One-based column of the byte `n` bytes into the line.  Inside a character
every byte takes a column of its own. -/
def column (l : IndexedLine) (n : Nat) : Nat :=
  match l.raw.takeBytes? n with
  | some before => before.length + 1
  | none => n + 1

end IndexedLine

/-- The lines of `t`, which starts at byte `start`, with the empty one behind
a final line feed. -/
def indexLines (start : Nat) : Text → List IndexedLine
  | [] => [⟨start, []⟩]
  | c :: cs =>
    if c = '\n' then ⟨start, ['\n']⟩ :: indexLines (start + 1) cs
    else
      match indexLines (start + c.utf8Size) cs with
      | [] => [⟨start, [c]⟩]
      | l :: ls => ⟨start, c :: l.raw⟩ :: ls

structure LineIndex where
  byteLength : Nat
  lines : List IndexedLine
  deriving DecidableEq, Repr

namespace LineIndex

def ofText (t : Text) : LineIndex := ⟨t.byteLength, indexLines 0 t⟩

/-- Number of lines.  The empty text has one. -/
def lineCount (index : LineIndex) : Nat :=
  match index.lines.getLast? with
  | some last =>
    if last.raw.isEmpty && 1 < index.lines.length then index.lines.length - 1
    else index.lines.length
  | none => 0

/-- The lines that count. -/
def countedLines (index : LineIndex) : List IndexedLine := index.lines.take index.lineCount

/-- The lines that start at or before an offset; it lies in the last one. -/
def linesUpTo (index : LineIndex) (offset : Nat) : List IndexedLine :=
  index.lines.takeWhile (·.start ≤ offset)

/-- Zero-based line of an offset. -/
def lineOf (index : LineIndex) (offset : Nat) : Nat := (index.linesUpTo offset).length - 1

/-- Position of an offset.  Offsets past the end count as the end. -/
def positionOf (index : LineIndex) (offset : Nat) : Position :=
  let offset := min offset index.byteLength
  let before := index.linesUpTo offset
  match before.getLast? with
  | some line => ⟨before.length, line.column (offset - line.start)⟩
  | none => .first

end LineIndex

end FenceFacts
