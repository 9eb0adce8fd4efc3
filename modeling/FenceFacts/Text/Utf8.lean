import FenceFacts.Text

/-!
# FenceFacts — UTF-8

Texts as bytes and back.  Bytes are read one at a time; between characters
nothing is owed, and after the first byte of a longer sequence the reader
knows how many bytes are still missing and which ones may come next.  The
ranges for the second byte rule out overlong forms, surrogates and numbers
past the last character.

A sequence can fail in two ways: a byte comes that cannot continue it, or the
bytes end before it does.  Of a sequence that fails, the bytes read so far are
at fault, and the byte that came instead is read afresh.
-/

namespace FenceFacts

def Text.encode (t : Text) : List UInt8 := t.flatMap String.utf8EncodeChar

namespace Utf8

-- ---------------------------------------------------------------------------
-- The reader
-- ---------------------------------------------------------------------------

/-- A sequence that is not complete yet. -/
structure Sequence where
  seen : Nat
  /-- Their payload bits. -/
  payload : Nat
  /-- Bytes still to come, the next one included. -/
  missing : Nat
  /-- The next byte lies between `low` and `high`. -/
  low : UInt8 := 0x80
  high : UInt8 := 0xBF
  deriving DecidableEq, Repr

/-- What the first byte of a sequence means. -/
inductive Opening
  | char (c : Char)
  | sequence (s : Sequence)
  | illegal
  deriving DecidableEq, Repr

def opening (b : UInt8) : Opening :=
  if b < 0x80 then .char (Char.ofNat b.toNat)
  else if b < 0xC2 then .illegal
  else if b < 0xE0 then .sequence { seen := 1, payload := b.toNat - 0xC0, missing := 1 }
  else if b < 0xF0 then
    .sequence {
      seen := 1, payload := b.toNat - 0xE0, missing := 2
      low := if b = 0xE0 then 0xA0 else 0x80
      high := if b = 0xED then 0x9F else 0xBF }
  else if b < 0xF5 then
    .sequence {
      seen := 1, payload := b.toNat - 0xF0, missing := 3
      low := if b = 0xF0 then 0x90 else 0x80
      high := if b = 0xF4 then 0x8F else 0xBF }
  else .illegal

namespace Sequence

def accepts (s : Sequence) (b : UInt8) : Bool := s.low ≤ b && b ≤ s.high

/-- The payload with the bits of `b`. -/
def extended (s : Sequence) (b : UInt8) : Nat := s.payload * 64 + (b.toNat - 0x80)

/-- The sequence after the accepted byte `b`. -/
def next (s : Sequence) (b : UInt8) : Sequence :=
  { seen := s.seen + 1, payload := s.extended b, missing := s.missing - 1 }

end Sequence

-- ---------------------------------------------------------------------------
-- Strict reading
-- ---------------------------------------------------------------------------

inductive Error
  /-- The `length` bytes from `index` on are the start of no character. -/
  | invalid (length index : Nat)
  /-- The bytes end within the character that starts at `index`. -/
  | incomplete (index : Nat)
  deriving DecidableEq, Repr

def Error.message : Error → String
  | .invalid length index => s!"invalid utf-8 sequence of {length} bytes from index {index}"
  | .incomplete index => s!"incomplete utf-8 byte sequence from index {index}"

/-- Reads the bytes from `index` on, within the sequence `current` if any. -/
def decodeFrom (index : Nat) (current : Option Sequence) : List UInt8 → Except Error Text
  | [] =>
    match current with
    | none => .ok []
    | some s => .error (.incomplete (index - s.seen))
  | b :: bs =>
    match current with
    | none =>
      match opening b with
      | .char c => (decodeFrom (index + 1) none bs).map (c :: ·)
      | .sequence s => decodeFrom (index + 1) (some s) bs
      | .illegal => .error (.invalid 1 index)
    | some s =>
      if !s.accepts b then .error (.invalid s.seen (index - s.seen))
      else if s.missing = 1 then
        (decodeFrom (index + 1) none bs).map (Char.ofNat (s.extended b) :: ·)
      else decodeFrom (index + 1) (some (s.next b)) bs

/-- The text that the bytes are, or the first thing that is wrong with them. -/
def decode (bytes : List UInt8) : Except Error Text := decodeFrom 0 none bytes

-- ---------------------------------------------------------------------------
-- Lossy reading
-- ---------------------------------------------------------------------------

/-- Stands for a sequence that failed. -/
def replacement : Char := '\uFFFD'

/-- Reads on within the sequence `current` if any, replacing what fails. -/
def decodeLossyFrom (current : Option Sequence) : List UInt8 → Text
  | [] => if current.isSome then [replacement] else []
  | b :: bs =>
    let afresh :=
      match opening b with
      | .char c => c :: decodeLossyFrom none bs
      | .sequence s => decodeLossyFrom (some s) bs
      | .illegal => replacement :: decodeLossyFrom none bs
    match current with
    | none => afresh
    | some s =>
      if !s.accepts b then replacement :: afresh
      else if s.missing = 1 then Char.ofNat (s.extended b) :: decodeLossyFrom none bs
      else decodeLossyFrom (some (s.next b)) bs

/-- The text that the bytes are, with every sequence that fails replaced. -/
def decodeLossy (bytes : List UInt8) : Text := decodeLossyFrom none bytes

end Utf8

end FenceFacts
