import FenceFacts.Fact.Json

/-!
# FenceFacts — fact stores

A store takes facts one by one.  It may fail to take one, and is left in a
state that shows how far it came.

* `FactList` keeps the facts in memory;
* `JsonLines` writes them as lines of JSON to a device that may have limited
  room: what fits of a line is kept, and then the device is full for good;
* `FactFile` writes the same lines to a file, block by block, so that what is
  in the file lags behind;
* `Discard` forgets them;
* `Draft` holds facts back from another store until they are committed.
-/

namespace FenceFacts

/-- Why a store did not take a fact. -/
inductive WriteError
  | deviceFull
  deriving DecidableEq, Repr

def WriteError.message : WriteError → String
  | deviceFull => "disk full"

/-- Takes facts, or fails and tells what became of the store. -/
class FactStore (σ : Type) where
  write : Fact → EStateM WriteError σ Unit

-- ---------------------------------------------------------------------------
-- In memory
-- ---------------------------------------------------------------------------

structure FactList where
  facts : List Fact := []
  deriving DecidableEq, Repr

instance : FactStore FactList where
  write f := fun s => .ok () ⟨s.facts ++ [f]⟩

-- ---------------------------------------------------------------------------
-- Nowhere
-- ---------------------------------------------------------------------------

structure Discard where
  deriving DecidableEq, Repr

instance : FactStore Discard where
  write _ := fun s => .ok () s

-- ---------------------------------------------------------------------------
-- JSON lines
-- ---------------------------------------------------------------------------

/-- Facts as lines of JSON on a device. -/
structure JsonLines where
  /-- The bytes that the device has taken. -/
  accepted : Array UInt8 := #[]
  /-- How many bytes it can take in all, if there is a limit. -/
  room : Option Nat := none
  written : Nat := 0
  deriving DecidableEq, Repr

namespace JsonLines

/-- Bytes that the device can still take of `bytes`. -/
def fitting (s : JsonLines) (bytes : List UInt8) : List UInt8 :=
  match s.room with
  | some room => bytes.take (room - s.accepted.size)
  | none => bytes

/-- Writes as many of the bytes as fit; fails if those are not all. -/
def append (bytes : List UInt8) : EStateM WriteError JsonLines Unit := fun s =>
  let kept := s.fitting bytes
  let s' := { s with accepted := s.accepted ++ kept.toArray }
  if kept.length < bytes.length then .error .deviceFull s' else .ok () s'

def countWritten : EStateM WriteError JsonLines Unit :=
  modify fun s => { s with written := s.written + 1 }

end JsonLines

instance : FactStore JsonLines where
  write f := do
    JsonLines.append f.jsonLine.encode
    JsonLines.countWritten

-- ---------------------------------------------------------------------------
-- Files
-- ---------------------------------------------------------------------------

/-- Facts as lines of JSON, part of them in a file. -/
structure FactFile where
  /-- The bytes in the file. -/
  stored : Array UInt8 := #[]
  /-- The bytes behind them that have not reached it yet. -/
  waiting : Array UInt8 := #[]
  deriving DecidableEq, Repr

namespace FactFile

/-- How many bytes can wait. -/
def blockSize : Nat := 8192

def bytes (f : FactFile) : Array UInt8 := f.stored ++ f.waiting

/-- With everything in the file. -/
def flush (f : FactFile) : FactFile := { stored := f.bytes }

/-- With one more piece.  It waits, together with others as long as there is
room for it; a piece that would fill all the room does not wait. -/
def put (f : FactFile) (piece : Array UInt8) : FactFile :=
  let f := if f.waiting.size + piece.size ≤ blockSize then f else f.flush
  if piece.size < blockSize then { f with waiting := f.waiting ++ piece }
  else { stored := f.bytes ++ piece }

theorem bytes_flush (f : FactFile) : f.flush.bytes = f.bytes := by
  simp [flush, bytes]

theorem bytes_put (f : FactFile) (piece : Array UInt8) :
    (f.put piece).bytes = f.bytes ++ piece := by
  simp only [put]
  split <;> split <;> simp [flush, bytes, Array.append_assoc]

end FactFile

instance : FactStore FactFile where
  write f := modify fun file => f.linePieces.foldl (fun file p => file.put p.encode.toArray) file

-- ---------------------------------------------------------------------------
-- Drafts
-- ---------------------------------------------------------------------------

/-- Facts that have not reached their store yet. -/
structure Draft (σ : Type) where
  target : σ
  pending : List Fact := []

instance {σ : Type} : FactStore (Draft σ) where
  write f := fun s => .ok () { s with pending := s.pending ++ [f] }

/-- Writes facts in order, up to the first failure. -/
def FactStore.writeAll {σ : Type} [FactStore σ] (facts : List Fact) : EStateM WriteError σ Unit :=
  facts.forM FactStore.write

end FenceFacts
