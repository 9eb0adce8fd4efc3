import FenceFacts.Document
import FenceFacts.Fact.Store

/-!
# FenceFacts — how extraction fails

A snippet fails because its script is rejected, because the store does not
take a fact, or because of a fault.  A rejection is reported at a position of
the snippet; for its document the position is carried over, and the report
names the source as well.
-/

namespace FenceFacts

/-- What happened at a step without an answer. -/
def Fault.message : Fault → String
  | outOfRange => "a number is out of range"
  | badOffset => "an offset lies outside its text or inside a character"

/-- Why a script was rejected, and where. -/
structure ParseError where
  message : String
  position : Position
  deriving DecidableEq, Repr

namespace ParseError

protected def toString (e : ParseError) : String := s!"{e.message} ({e.position})"

instance : ToString ParseError := ⟨ParseError.toString⟩

def translated (t : Translator) (e : ParseError) : Except Fault ParseError := do
  return { e with position := ← t.translate e.position }

end ParseError

def WriteError.report (e : WriteError) : String := s!"failed to write facts: {e.message}"

-- ---------------------------------------------------------------------------
-- Snippets
-- ---------------------------------------------------------------------------

/-- Why nothing more was extracted from a snippet. -/
inductive SnippetFailure
  | parse (e : ParseError)
  | write (e : WriteError)
  | fault (f : Fault)
  deriving DecidableEq, Repr

namespace SnippetFailure

def message : SnippetFailure → String
  | parse e => toString e
  | write e => e.report
  | fault f => f.message

end SnippetFailure

-- ---------------------------------------------------------------------------
-- Documents
-- ---------------------------------------------------------------------------

/-- Why a document was not extracted. -/
inductive ExtractionFailure
  | parse (source : Source) (e : ParseError)
  | write (e : WriteError)
  | fault (f : Fault)
  deriving DecidableEq, Repr

namespace ExtractionFailure

def message : ExtractionFailure → String
  | parse source e => s!"{source}:{e.position}: {e.message}"
  | write e => e.report
  | fault f => f.message

/-- Where a rejected script is wrong. -/
def position? : ExtractionFailure → Option Position
  | parse _ e => some e.position
  | _ => none

end ExtractionFailure

/-- The failure of a snippet, told of its document. -/
def SnippetFailure.inDocument (source : Source) (t : Translator) :
    SnippetFailure → ExtractionFailure
  | parse e =>
    match e.translated t with
    | .ok e' => .parse source e'
    | .error f => .fault f
  | write e => .write e
  | fault f => .fault f

end FenceFacts
