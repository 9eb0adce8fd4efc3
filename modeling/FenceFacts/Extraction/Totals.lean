import FenceFacts.Position
import FenceFacts.Script.Analysis

/-!
# FenceFacts — sums of line counts

The line counts of snippets add up to those of their document, and those of
documents to those of a run.  Each count stays below a fixed bound; a sum
that reaches it has no answer.
-/

namespace FenceFacts

namespace LineTotals

/-- Counts stay below this number. -/
def bound : Nat := Nat.pow 2 64

def sumCounts (m n : Nat) : Except Fault Nat :=
  if m + n < bound then .ok (m + n) else .error .outOfRange

def add (a b : LineTotals) : Except Fault LineTotals := do
  let code ← sumCounts a.code b.code
  let comments ← sumCounts a.comments b.comments
  return ⟨code, comments⟩

def sum (all : List LineTotals) : Except Fault LineTotals := all.foldlM add {}

def describe (t : LineTotals) : String :=
  s!"{t.code} lines of code, {t.comments} lines of comments"

end LineTotals

end FenceFacts
