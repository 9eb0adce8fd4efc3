import FenceFacts.Fact
import FenceFacts.Text.Quoted

/-!
# FenceFacts — facts for reading

One line per fact: its label, what it says, and where.  Texts of lines and
comments are quoted, so that each fact stays on its line; paths and names
stand as they are.
-/

namespace FenceFacts

namespace Fact

def render : Fact → Text
  | file label path => s!"{label} file ".toList ++ path
  | topLevel label owner kind isModule location =>
    s!"{label} toplevel {kind} in {owner} module={isModule} @{location}".toList
  | line label parent text _ location =>
    s!"{label} line ".toList ++ text.quote ++ s!" in {parent} @{location}".toList
  | comment label parent text location =>
    s!"{label} comment ".toList ++ text.quote ++ s!" in {parent} @{location}".toList
  | declaration label parent binding name kind location =>
    s!"{label} {kind.keyword} ".toList ++ name ++
      s!" -> {binding} in {parent} @{location}".toList

/-- The lines of several facts, with line feeds between them. -/
def renderAll (facts : List Fact) : Text := ['\n'].intercalate (facts.map render)

end Fact

end FenceFacts
