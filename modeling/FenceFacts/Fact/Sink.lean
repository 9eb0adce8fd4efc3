import FenceFacts.Fact.Store

/-!
# FenceFacts — sinks

A sink is where a run of extractions puts what it finds: a store for the
facts, the last label that was handed out, and notes on what was done.
Labels are numbered from one and never handed out twice, also when the facts
they were meant for never reach the store.

A transaction runs on a draft.  If it succeeds the facts of the draft are
written to the store; if it fails they are dropped.  Its labels stay spent
either way.
-/

namespace FenceFacts

inductive NoteLevel
  | debug
  | trace
  deriving DecidableEq, Repr

structure Note where
  level : NoteLevel
  message : String
  deriving DecidableEq, Repr

structure Sink (σ : Type) where
  store : σ
  lastLabel : Nat := 0
  notes : List Note := []

namespace Sink

variable {σ ε α : Type}

/-- A label that this sink has not handed out before. -/
def fresh : EStateM ε (Sink σ) Label := fun s =>
  .ok ⟨s.lastLabel + 1⟩ { s with lastLabel := s.lastLabel + 1 }

def note (level : NoteLevel) (message : String) : EStateM ε (Sink σ) Unit :=
  modify fun s => { s with notes := s.notes ++ [⟨level, message⟩] }

def onStore (action : EStateM ε σ α) : EStateM ε (Sink σ) α := fun s =>
  match action s.store with
  | .ok a store => .ok a { s with store }
  | .error e store => .error e { s with store }

def emit [FactStore σ] (f : Fact) : EStateM WriteError (Sink σ) Unit := onStore (FactStore.write f)

-- ---------------------------------------------------------------------------
-- Transactions
-- ---------------------------------------------------------------------------

/-- The sink with an empty draft in front of its store. -/
def openDraft (s : Sink σ) : Sink (Draft σ) := { s with store := ⟨s.store, []⟩ }

/-- The sink without its draft. -/
def dropDraft (s : Sink (Draft σ)) : Sink σ := { s with store := s.store.target }

def commit [FactStore σ] (s : Sink (Draft σ)) : EStateM.Result WriteError (Sink σ) Unit :=
  onStore (FactStore.writeAll s.store.pending) s.dropDraft

/-- Runs `work` on a draft and commits it. -/
def transaction [FactStore σ] (failed : WriteError → ε) (work : EStateM ε (Sink (Draft σ)) α) :
    EStateM ε (Sink σ) α := fun s =>
  match work s.openDraft with
  | .error e s' => .error e s'.dropDraft
  | .ok a s' =>
    match s'.commit with
    | .ok _ s'' => .ok a s''
    | .error e s'' => .error (failed e) s''

end Sink

end FenceFacts
