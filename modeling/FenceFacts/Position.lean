import FenceFacts.Text

/-!
# FenceFacts — positions

A position is a line and a column, both counted from one; columns count
characters.  Which text it lies in, a whole document or a single snippet, is
known to its holder.  A location runs from the position of its first
character to the position of its last one.

A translator carries positions of a snippet over to the document around it.
Only the first line of a snippet can start in the middle of a document line,
so only on that line do the columns move.
-/

namespace FenceFacts

/-- A step that has no answer: a number leaves its range, or an offset cuts a
character or lies outside its text. -/
inductive Fault
  | outOfRange
  | badOffset
  deriving DecidableEq, Repr

-- ---------------------------------------------------------------------------
-- Positions
-- ---------------------------------------------------------------------------

structure Position where
  line : Nat
  column : Nat
  deriving DecidableEq, Repr

namespace Position

/-- The first character of a text. -/
def first : Position := ⟨1, 1⟩

/-- Lines first, columns within a line. -/
protected def Before (p q : Position) : Prop :=
  p.line < q.line ∨ p.line = q.line ∧ p.column < q.column

instance : LT Position := ⟨Position.Before⟩

instance (p q : Position) : Decidable (p < q) :=
  inferInstanceAs (Decidable (p.line < q.line ∨ p.line = q.line ∧ p.column < q.column))

/-- The position after reading `c` at `p`. -/
def after (p : Position) (c : Char) : Position :=
  if c = '\n' then ⟨p.line + 1, 1⟩ else ⟨p.line, p.column + 1⟩

protected def toString (p : Position) : String := s!"{p.line}:{p.column}"

instance : ToString Position := ⟨Position.toString⟩

/-- Lines and columns that are added up stay below this number. -/
def bound : Nat := Nat.pow 2 32

/-- A sum of line or column numbers, while it stays below `bound`. -/
def sum (m n : Nat) : Except Fault Nat :=
  if m + n < bound then .ok (m + n) else .error .outOfRange

end Position

/-- The position of byte offset `n` of `t`, reading on from `p`.  An offset
past the end counts as the end; inside a character there is no position. -/
def Text.walk : Text → Nat → Position → Option Position
  | _, 0, p => some p
  | [], _ + 1, p => some p
  | c :: cs, n + 1, p =>
    if c.utf8Size ≤ n + 1 then Text.walk cs (n + 1 - c.utf8Size) (p.after c) else none

-- ---------------------------------------------------------------------------
-- Locations
-- ---------------------------------------------------------------------------

/-- From the first character of something to its last one. -/
structure Location where
  start : Position
  stop : Position
  deriving DecidableEq, Repr

namespace Location

protected def toString (l : Location) : String := s!"{l.start}-{l.stop}"

instance : ToString Location := ⟨Location.toString⟩

end Location

-- ---------------------------------------------------------------------------
-- Translators
-- ---------------------------------------------------------------------------

/-- Carries positions of a snippet over to its document.  `anchor` is where
the first character of the snippet goes. -/
structure Translator where
  anchor : Position := .first
  deriving DecidableEq, Repr

namespace Translator

/-- Later lines keep their columns; the first line moves right as well. -/
def translate (t : Translator) (p : Position) : Except Fault Position := do
  let line ← Position.sum t.anchor.line (p.line - 1)
  let column ← if p.line ≤ 1 then Position.sum t.anchor.column (p.column - 1) else .ok p.column
  return ⟨line, column⟩

def translateLocation (t : Translator) (l : Location) : Except Fault Location := do
  let start ← t.translate l.start
  let stop ← t.translate l.stop
  return ⟨start, stop⟩

end Translator

end FenceFacts
