import FenceFacts.Proofs.Json.Reader
import FenceFacts.Proofs.JsonLines
import FenceFacts.Proofs.Lines

/-!
# FenceFacts — facts read back

The line of a fact is read field by field, in the order of the format, and
gives the fact back, whatever characters its texts hold.  As a line has one
line feed, at its end, the text of many facts falls into their lines again.
So a reader of lines of JSON gets exactly the facts that were written, and
different facts never make the same text.

## Results

* `reads_fact`         — one fact.
* `lines_jsonText`     — a text of facts, line by line.
* `readFacts_jsonText` — all facts of a text.
-/

namespace FenceFacts

-- ---------------------------------------------------------------------------
-- Readers for facts
-- ---------------------------------------------------------------------------

namespace JsonReader

def label : JsonReader Label := do
  return ⟨← number⟩

def position : JsonReader Position := do
  let line ← member '\x7b' "line" number
  let column ← member ',' "column" number
  close ⟨line, column⟩

def location : JsonReader Location := do
  let start ← member '\x7b' "start" position
  let stop ← member ',' "end" position
  close ⟨start, stop⟩

def topLevelKind : JsonReader TopLevelKind :=
  oneOf [("script", .script), ("inline_script", .inlineScript)]

def declarationKind : JsonReader DeclarationKind :=
  oneOf (DeclarationKind.all.map fun kind => (kind.keyword, kind))

def fileFields : JsonReader Fact := do
  let l ← member ',' "label" label
  let path ← member ',' "path" string
  close (.file l path)

def topLevelFields : JsonReader Fact := do
  let l ← member ',' "label" label
  let file ← member ',' "file" label
  let kind ← member ',' "toplevel_kind" topLevelKind
  let isModule ← member ',' "is_module" bool
  let place ← member ',' "location" location
  close (.topLevel l file kind isModule place)

def lineFields : JsonReader Fact := do
  let l ← member ',' "label" label
  let topLevel ← member ',' "toplevel" label
  let text ← member ',' "text" string
  let terminator ← member ',' "terminator" string
  let place ← member ',' "location" location
  close (.line l topLevel text terminator place)

def commentFields : JsonReader Fact := do
  let l ← member ',' "label" label
  let topLevel ← member ',' "toplevel" label
  let text ← member ',' "text" string
  let place ← member ',' "location" location
  close (.comment l topLevel text place)

def declarationFields : JsonReader Fact := do
  let l ← member ',' "label" label
  let topLevel ← member ',' "toplevel" label
  let bound ← member ',' "variable" label
  let name ← member ',' "name" string
  let kind ← member ',' "declaration_kind" declarationKind
  let place ← member ',' "location" location
  close (.declaration l topLevel bound name kind place)

/-- A fact: its kind tells which fields follow. -/
def fact : JsonReader Fact := do
  let fields ← member '\x7b' "kind" (oneOf [("file", fileFields), ("top_level", topLevelFields),
    ("line", lineFields), ("comment", commentFields), ("declaration", declarationFields)])
  fields

-- ---------------------------------------------------------------------------
-- What they read
-- ---------------------------------------------------------------------------

theorem reads_label (l : Label) : ReadsBefore label l.json.flatten l := by
  intro c rest hc
  have hnumber : number (l.json.flatten ++ c :: rest) = some (l.number, c :: rest) :=
    reads_number l.number c rest hc
  rw [label, bind_of_some hnumber]
  rfl

theorem reads_position (p : Position) : Reads position p.json.flatten p :=
  reads_object (reads_number p.line) (reads_member (reads_number p.column) (reads_close p))

theorem reads_location (l : Location) : Reads location l.json.flatten l :=
  reads_object (reads_position l.start).before
    (reads_member (reads_position l.stop).before (reads_close l))

theorem reads_topLevelKind (kind : TopLevelKind) : Reads topLevelKind kind.json.flatten kind := by
  cases kind <;> exact reads_oneOf rfl

theorem reads_declarationKind (kind : DeclarationKind) :
    Reads declarationKind (jsonWord kind.keyword).flatten kind := by
  cases kind <;> exact reads_oneOf rfl

/-- The line of a fact holds **that fact**. -/
theorem reads_fact (f : Fact) : Reads fact f.json.flatten f := by
  cases f with
  | file l path =>
    exact reads_object (reads_oneOf (a := fileFields) rfl).before <|
      reads_member (reads_label l) <| reads_member (reads_string path).before (reads_close _)
  | topLevel l file kind isModule place =>
    exact reads_object (reads_oneOf (a := topLevelFields) rfl).before <|
      reads_member (reads_label l) <| reads_member (reads_label file) <|
      reads_member (reads_topLevelKind kind).before <|
      reads_member (reads_bool isModule).before <|
      reads_member (reads_location place).before (reads_close _)
  | line l topLevel text terminator place =>
    exact reads_object (reads_oneOf (a := lineFields) rfl).before <|
      reads_member (reads_label l) <| reads_member (reads_label topLevel) <|
      reads_member (reads_string text).before <| reads_member (reads_string terminator).before <|
      reads_member (reads_location place).before (reads_close _)
  | comment l topLevel text place =>
    exact reads_object (reads_oneOf (a := commentFields) rfl).before <|
      reads_member (reads_label l) <| reads_member (reads_label topLevel) <|
      reads_member (reads_string text).before <|
      reads_member (reads_location place).before (reads_close _)
  | declaration l topLevel bound name kind place =>
    exact reads_object (reads_oneOf (a := declarationFields) rfl).before <|
      reads_member (reads_label l) <| reads_member (reads_label topLevel) <|
      reads_member (reads_label bound) <| reads_member (reads_string name).before <|
      reads_member (reads_declarationKind kind).before <|
      reads_member (reads_location place).before (reads_close _)

end JsonReader

-- ---------------------------------------------------------------------------
-- Lines of facts
-- ---------------------------------------------------------------------------

/-- The lines of the facts, one after the other. -/
def jsonText (facts : List Fact) : Text := facts.flatMap Fact.jsonLine

/-- The fact of a line that holds one, up to its line feed. -/
def Fact.ofLine? (line : Text) : Option Fact :=
  match JsonReader.fact line with
  | some (f, ['\n']) => some f
  | _ => none

/-- The facts of a text that has one on every line. -/
def readFacts (t : Text) : Option (List Fact) := t.lines.mapM Fact.ofLine?

theorem Fact.ofLine?_jsonLine (f : Fact) : Fact.ofLine? f.jsonLine = some f := by
  rw [ofLine?, jsonLine_eq, JsonReader.reads_fact f ['\n']]
  rfl

theorem lines_jsonText (facts : List Fact) : (jsonText facts).lines = facts.map Fact.jsonLine := by
  induction facts with
  | nil => rfl
  | cons f facts ih =>
    have hline : jsonText (f :: facts) = f.json.flatten ++ '\n' :: jsonText facts := by
      rw [jsonText, List.flatMap_cons, jsonLine_eq, List.append_assoc]
      rfl
    rw [hline, Text.lines_terminated_append (newline_not_mem_json f), ih, List.map_cons,
      jsonLine_eq]

/-- The facts of a text are **those that were written**. -/
theorem readFacts_jsonText (facts : List Fact) : readFacts (jsonText facts) = some facts := by
  rw [readFacts, lines_jsonText]
  induction facts with
  | nil => rfl
  | cons f facts ih =>
    rw [List.map_cons, List.mapM_cons, Fact.ofLine?_jsonLine, ih]
    rfl

theorem jsonText_injective : Function.Injective jsonText := by
  intro facts facts' h
  have hread : some facts = some facts' := by
    rw [← readFacts_jsonText facts, h, readFacts_jsonText facts']
  exact Option.some_inj.mp hread

/-- Every line feed of a text of facts **ends a fact**. -/
theorem count_newline_jsonText (facts : List Fact) : (jsonText facts).count '\n' = facts.length := by
  have hclosed : (jsonText facts).IsClosed := by
    induction facts with
    | nil => exact Text.isClosed_nil
    | cons f facts ih =>
      have hline : f.jsonLine.IsClosed := jsonLine_eq f ▸ Text.isClosed_concat _
      exact hline.append ih
  rw [← Text.length_lines_of_closed hclosed, lines_jsonText, List.length_map]

theorem encode_jsonText (facts : List Fact) : (jsonText facts).encode = lineBytes facts := by
  rw [jsonText, Text.encode, List.flatMap_assoc]
  rfl

end FenceFacts
