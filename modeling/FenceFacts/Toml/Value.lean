import FenceFacts.Text

/-!
# FenceFacts — TOML values

What a TOML document says: a table whose fields are values.  Numbers with a
point and dates are kept as they are written.

Something can be written like a number and still be none: it is too large, or
letters stand behind an underscore.  It is kept as well, for it does harm only
where somebody wants its value.

A document is written line by line, and its tables come about in different
ways.  Those decide what later lines may still add to a table: a table can be
opened by a header once, and the dotted keys that built a table are the only
ones that can go on building it.
-/

namespace FenceFacts

/-- How a table came about. -/
inductive TableOrigin
  /-- By a header of its own; the whole document is such a table too. -/
  | header
  /-- On the way to the table of another header. -/
  | passed
  /-- On the way along a dotted key. -/
  | dotted
  | inline
  deriving DecidableEq, Repr

inductive TomlValue
  | string (t : Text)
  | integer (n : Int)
  | float (written : Text)
  /-- Written like a number, and not the number of anything. -/
  | misnumber (written : Text)
  | boolean (b : Bool)
  | date (written : Text)
  | array (elements : List TomlValue)
  /-- Tables opened by headers in double brackets. -/
  | tables (elements : List (List (Text × TomlValue)))
  | table (origin : TableOrigin) (fields : List (Text × TomlValue))
  deriving Repr

/-- The fields of a table, in the order in which they were first named. -/
abbrev TomlFields := List (Text × TomlValue)

namespace TomlValue

mutual

/-- Whether everything in the value has a value of its own. -/
def isSound : TomlValue → Bool
  | misnumber _ => false
  | array elements => areSound elements
  | tables elements => areSoundTables elements
  | table _ fields => areSoundFields fields
  | _ => true

def areSound : List TomlValue → Bool
  | [] => true
  | element :: rest => isSound element && areSound rest

def areSoundFields : List (Text × TomlValue) → Bool
  | [] => true
  | (_, value) :: rest => isSound value && areSoundFields rest

def areSoundTables : List (List (Text × TomlValue)) → Bool
  | [] => true
  | fields :: rest => areSoundFields fields && areSoundTables rest

end

end TomlValue

/-- A key: the names of the tables on the way, and the name of the field. -/
structure TomlKey where
  parents : List Text := []
  name : Text
  deriving DecidableEq, Repr

/-- What one line of a document says.  An array or a long string may make it
longer than a line. -/
inductive TomlLine
  | field (key : TomlKey) (value : TomlValue)
  | header (key : TomlKey)
  | element (key : TomlKey)
  deriving Repr

end FenceFacts
