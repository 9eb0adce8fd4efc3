import FenceFacts.Fact

/-!
# FenceFacts — scopes

The variables of one document.  All its snippets share one scope, so a name
that two of them declare is one variable with one label.
-/

namespace FenceFacts

/-- The names declared so far, with the labels of their variables. -/
structure Scope where
  labels : List (Text × Label) := []
  deriving DecidableEq, Repr

namespace Scope

def lookup (s : Scope) (name : Text) : Option Label := s.labels.lookup name

def bind (s : Scope) (name : Text) (label : Label) : Scope := ⟨(name, label) :: s.labels⟩

end Scope

end FenceFacts
