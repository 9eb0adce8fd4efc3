import FenceFacts.Position
import FenceFacts.Script.Statement

/-!
# FenceFacts — facts

What extraction learns about documents is a stream of facts.  Every fact has
a label of its own, and facts refer to each other by label: a top level to
its file, lines, comments and declarations to their top level.  A declaration
also has the label of the variable it binds, which is the same for every
declaration of that name in the document.

Facts are shown on one line each, for reading; `Fact/Json.lean` has the form
that other programs read.
-/

namespace FenceFacts

/-- Names one fact or variable. -/
structure Label where
  number : Nat
  deriving DecidableEq, Repr

namespace Label

protected def toString (l : Label) : String := s!"#{l.number}"

instance : ToString Label := ⟨Label.toString⟩

end Label

/-- Where a script comes from. -/
inductive TopLevelKind
  | script
  | inlineScript
  deriving DecidableEq, Repr

namespace TopLevelKind

protected def toString : TopLevelKind → String
  | script => "Script"
  | inlineScript => "InlineScript"

instance : ToString TopLevelKind := ⟨TopLevelKind.toString⟩

end TopLevelKind

inductive Fact
  | file (label : Label) (path : Text)
  | topLevel (label file : Label) (kind : TopLevelKind) (isModule : Bool) (location : Location)
  | line (label topLevel : Label) (text terminator : Text) (location : Location)
  | comment (label topLevel : Label) (text : Text) (location : Location)
  | declaration (label topLevel binding : Label) (name : Text) (kind : DeclarationKind)
      (location : Location)
  deriving DecidableEq, Repr

namespace Fact

def label : Fact → Label
  | file l _ => l
  | topLevel l _ _ _ _ => l
  | line l _ _ _ _ => l
  | comment l _ _ _ => l
  | declaration l _ _ _ _ _ => l

end Fact

end FenceFacts
