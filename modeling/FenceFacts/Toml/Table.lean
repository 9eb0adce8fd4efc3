import FenceFacts.Toml.Value

/-!
# FenceFacts — the tables of a TOML document

The lines of a document, taken one after another, define its tables.  A line
that would define something twice, or add to something that is closed, makes
the whole document invalid.
-/

namespace FenceFacts

namespace TableOrigin

/-- Whether a key can pass through the table.  A table in braces is closed,
and a table with a header of its own is closed to dotted keys. -/
def admits (dotted : Bool) : TableOrigin → Bool
  | header => !dotted
  | passed | TableOrigin.dotted => true
  | inline => false

/-- The origin of a table that is named on the way. -/
def onTheWay (dotted : Bool) : TableOrigin := if dotted then .dotted else .passed

end TableOrigin

namespace TomlFields

/-- The fields with another value for a name that they have. -/
def replace (name : Text) (value : TomlValue) (fields : TomlFields) : TomlFields :=
  fields.map fun field => if field.1 = name then (name, value) else field

def add (name : Text) (value : TomlValue) (fields : TomlFields) : Option TomlFields :=
  match fields.lookup name with
  | none => some (fields ++ [(name, value)])
  | some _ => none

/-- Changes the table that `path` leads to.  Tables that are missing on the
way appear; of an array of tables the last one is meant. -/
def change (dotted : Bool) (f : TableOrigin → TomlFields → Option TomlFields) :
    List Text → TableOrigin → TomlFields → Option TomlFields
  | [], origin, fields => f origin fields
  | name :: path, _, fields => do
    match fields.lookup name with
    | none =>
      let inner ← change dotted f path (.onTheWay dotted) []
      return fields ++ [(name, .table (.onTheWay dotted) inner)]
    | some (.table origin inner) =>
      if !origin.admits dotted then failure
      let inner ← change dotted f path origin inner
      return replace name (.table origin inner) fields
    | some (.tables elements) =>
      let inner ← change dotted f path .header (← elements.getLast?)
      return replace name (.tables (elements.dropLast ++ [inner])) fields
    | some _ => failure

/-- The table with a field.  A dotted key goes on with tables that dotted
keys began, and with no others. -/
def define (key : TomlKey) (value : TomlValue) (origin : TableOrigin) (fields : TomlFields) :
    Option TomlFields :=
  change true (fun origin fields =>
    if key.parents.isEmpty || origin = .dotted then add key.name value fields else none)
    key.parents origin fields

/-- Opens a table.  One that was only passed so far can still be opened. -/
def openTable (name : Text) (fields : TomlFields) : Option TomlFields :=
  match fields.lookup name with
  | some (.table .passed inner) => some (replace name (.table .header inner) fields)
  | _ => add name (.table .header []) fields

/-- Opens the next table of an array of tables. -/
def openElement (name : Text) (fields : TomlFields) : Option TomlFields :=
  match fields.lookup name with
  | some (.tables elements) => some (replace name (.tables (elements ++ [[]])) fields)
  | _ => add name (.tables [[]]) fields

end TomlFields

/-- A document as far as it has been read. -/
structure TomlDraft where
  fields : TomlFields := []
  /-- The table that fields go to. -/
  current : List Text := []

namespace TomlDraft

/-- The draft with what one more line says. -/
def extend (d : TomlDraft) : TomlLine → Option TomlDraft
  | .field key value => do
    let fields ← d.fields.change false (TomlFields.define key value) d.current .header
    return { d with fields }
  | .header key => do
    let fields ← d.fields.change false (fun _ => TomlFields.openTable key.name) key.parents .header
    return ⟨fields, key.parents ++ [key.name]⟩
  | .element key => do
    let fields ←
      d.fields.change false (fun _ => TomlFields.openElement key.name) key.parents .header
    return ⟨fields, key.parents ++ [key.name]⟩

end TomlDraft

/-- The document that lines make up. -/
def TomlFields.ofLines? (lines : List TomlLine) : Option TomlFields :=
  (lines.foldlM TomlDraft.extend {}).map (·.fields)

end FenceFacts
