/-!
# FenceFacts — texts and byte offsets

A text is the list of its characters.  Every offset in this library counts
UTF-8 bytes from the start of a text, so an offset may fall inside a
character; the functions below that cut a text at an offset answer `none`
for such an offset and for one past the end, and never move it.

A line ends with a line feed, which belongs to it.  Only the last line of a
text can lack one.
-/

namespace FenceFacts

/-- A text: its characters, in order. -/
abbrev Text := List Char

namespace Text

-- ---------------------------------------------------------------------------
-- Byte offsets
-- ---------------------------------------------------------------------------

/-- Length in UTF-8 bytes. -/
def byteLength : Text → Nat
  | [] => 0
  | c :: cs => c.utf8Size + byteLength cs

/-- What follows the first `n` bytes. -/
def dropBytes? : Text → Nat → Option Text
  | t, 0 => some t
  | [], _ + 1 => none
  | c :: cs, n + 1 =>
    if c.utf8Size ≤ n + 1 then dropBytes? cs (n + 1 - c.utf8Size) else none

/-- The first `n` bytes. -/
def takeBytes? : Text → Nat → Option Text
  | _, 0 => some []
  | [], _ + 1 => none
  | c :: cs, n + 1 =>
    if c.utf8Size ≤ n + 1 then
      (takeBytes? cs (n + 1 - c.utf8Size)).map (c :: ·)
    else none

/-- The bytes from `start` up to `stop`.  A range that does not run forward
holds nothing, wherever it lies. -/
def slice? (t : Text) (start stop : Nat) : Option Text :=
  if stop ≤ start then some []
  else (dropBytes? t start).bind (takeBytes? · (stop - start))

@[simp] theorem byteLength_nil : byteLength [] = 0 := rfl

@[simp] theorem byteLength_cons (c : Char) (cs : Text) :
    byteLength (c :: cs) = c.utf8Size + byteLength cs := rfl

@[simp] theorem byteLength_append (s t : Text) :
    byteLength (s ++ t) = byteLength s + byteLength t := by
  induction s with
  | nil => simp
  | cons c cs ih => simp [ih, Nat.add_assoc]

-- ---------------------------------------------------------------------------
-- Lines
-- ---------------------------------------------------------------------------

def isLineBreak (c : Char) : Bool := c == '\r' || c == '\n'

/-- The text without the run of carriage returns and line feeds at its end. -/
def withoutTerminator (t : Text) : Text :=
  (t.reverse.dropWhile isLineBreak).reverse

/-- The run of carriage returns and line feeds at the end of the text. -/
def terminator (t : Text) : Text :=
  (t.reverse.takeWhile isLineBreak).reverse

theorem withoutTerminator_append_terminator (t : Text) :
    t.withoutTerminator ++ t.terminator = t := by
  unfold withoutTerminator terminator
  rw [← List.reverse_append, List.takeWhile_append_dropWhile, List.reverse_reverse]

/-- The lines of a text, each with the line feed that ends it.  The empty
text has no line, and a final line feed starts no further one. -/
def lines : Text → List Text
  | [] => []
  | c :: cs =>
    if c = '\n' then ['\n'] :: lines cs
    else
      match lines cs with
      | [] => [[c]]
      | l :: ls => (c :: l) :: ls

theorem flatten_lines (t : Text) : t.lines.flatten = t := by
  induction t with
  | nil => rfl
  | cons c cs ih =>
    unfold lines
    split
    · next h => simp [h, ih]
    · split
      · next h => simp [h] at ih ⊢; exact ih
      · next h => simp [h] at ih ⊢; exact ih

/-- The line ends with a line feed. -/
def isTerminated (line : Text) : Bool := line.getLast? == some '\n'

/-- Nothing but spaces and control characters of ASCII. -/
def isBlank (t : Text) : Bool := t.all (· ≤ ' ')

/-- At most `limit` characters of the text on one line: what is cut off is
shown by three dots, carriage returns and line feeds are spelled out. -/
def preview (limit : Nat) (t : Text) : Text :=
  (t.take limit ++ if limit < t.length then ['.', '.', '.'] else []).flatMap fun c =>
    if c = '\r' then ['\\', 'r'] else if c = '\n' then ['\\', 'n'] else [c]

end Text

end FenceFacts
