import FenceFacts.Extraction.Failure
import FenceFacts.Extraction.Scope
import FenceFacts.Extraction.Totals
import FenceFacts.Fact.Sink

/-!
# FenceFacts — snippets and their extractors

A snippet is one piece of script: its text, the translator that carries its
positions over to the document, and the file that it belongs to.  An
extractor is anything that turns a snippet into line counts while it works on
a workspace, which holds the scope of the document and the sink of the run.
It reports errors in positions of the snippet and emits facts in positions of
the document.
-/

namespace FenceFacts

structure Snippet where
  text : Text
  kind : TopLevelKind
  translator : Translator
  file : Label
  deriving DecidableEq, Repr

/-- What an extractor works on. -/
structure Workspace (σ : Type) where
  scope : Scope := {}
  sink : Sink σ

/-- Turns a snippet into line counts and facts. -/
abbrev SnippetExtractor (σ : Type) :=
  Snippet → EStateM SnippetFailure (Workspace σ) LineTotals

namespace Workspace

variable {σ ε α : Type}

def onSink (action : EStateM ε (Sink σ) α) : EStateM ε (Workspace σ) α := fun w =>
  match action w.sink with
  | .ok a sink => .ok a { w with sink }
  | .error e sink => .error e { w with sink }

def fresh : EStateM ε (Workspace σ) Label := onSink Sink.fresh

def note (level : NoteLevel) (message : String) : EStateM ε (Workspace σ) Unit :=
  onSink (Sink.note level message)

def emit [FactStore σ] (f : Fact) : EStateM SnippetFailure (Workspace σ) Unit :=
  (onSink (Sink.emit f)).adaptExcept .write

/-- The label of the variable `name`, a fresh one when it is declared for the
first time. -/
def declare (name : Text) : EStateM ε (Workspace σ) Label := do
  match (← get).scope.lookup name with
  | some label => return label
  | none =>
    let label ← fresh
    modify fun w => { w with scope := w.scope.bind name label }
    return label

def ofExcept {ε' : Type} (failed : ε' → ε) (x : Except ε' α) : EStateM ε (Workspace σ) α := fun w =>
  match x with
  | .ok a => .ok a w
  | .error e => .error (failed e) w

/-- Works on a sink with a scope of its own. -/
def withFreshScope (work : EStateM ε (Workspace σ) α) : EStateM ε (Sink σ) α := fun s =>
  match work { sink := s } with
  | .ok a w => .ok a w.sink
  | .error e w => .error e w.sink

end Workspace

end FenceFacts
