import FenceFacts.Fact
import FenceFacts.Text.Json
import FenceFacts.Text.Utf8

/-!
# FenceFacts — facts as JSON lines

A fact as one line of JSON: an object without blanks whose first field is the
kind of the fact.  The fields of each kind stand in a fixed order.  No string
holds a raw line feed, so the line feed behind the object ends its line; it is
the last piece of the line.
-/

namespace FenceFacts

namespace Position

def json (p : Position) : JsonPieces :=
  jsonObject [("line", jsonNumber p.line), ("column", jsonNumber p.column)]

end Position

namespace Location

def json (l : Location) : JsonPieces :=
  jsonObject [("start", l.start.json), ("end", l.stop.json)]

end Location

namespace Label

def json (l : Label) : JsonPieces := jsonNumber l.number

end Label

namespace TopLevelKind

def json : TopLevelKind → JsonPieces
  | script => jsonWord "script"
  | inlineScript => jsonWord "inline_script"

end TopLevelKind

namespace Fact

def kindName : Fact → String
  | file .. => "file"
  | topLevel .. => "top_level"
  | line .. => "line"
  | comment .. => "comment"
  | declaration .. => "declaration"

/-- The fields of a fact behind its kind, in the order of the format. -/
def jsonFields : Fact → List (String × JsonPieces)
  | file label path => [("label", label.json), ("path", jsonString path)]
  | topLevel label owner kind isModule location =>
    [("label", label.json), ("file", owner.json), ("toplevel_kind", kind.json),
      ("is_module", jsonBool isModule), ("location", location.json)]
  | line label parent text terminator location =>
    [("label", label.json), ("toplevel", parent.json), ("text", jsonString text),
      ("terminator", jsonString terminator), ("location", location.json)]
  | comment label parent text location =>
    [("label", label.json), ("toplevel", parent.json), ("text", jsonString text),
      ("location", location.json)]
  | declaration label parent binding name kind location =>
    [("label", label.json), ("toplevel", parent.json), ("variable", binding.json),
      ("name", jsonString name), ("declaration_kind", jsonWord kind.keyword),
      ("location", location.json)]

def json (f : Fact) : JsonPieces := jsonObject (("kind", jsonWord f.kindName) :: f.jsonFields)

/-- The line for the fact, in its pieces. -/
def linePieces (f : Fact) : JsonPieces := f.json ++ [['\n']]

def jsonLine (f : Fact) : Text := f.linePieces.flatten

end Fact

end FenceFacts
