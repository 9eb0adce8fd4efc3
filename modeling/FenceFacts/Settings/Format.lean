import FenceFacts.Settings.Basic
import FenceFacts.Toml.Reader

/-!
# FenceFacts — settings as TOML

Settings are written as two tables, `extractor` and `output`.  A setting that
is missing has its default, and names that mean nothing here are passed over,
as long as their values are sound; a value of the wrong kind is an error.

A table can also be given as an array of its values, in the order in which
they are written, with anything behind them.  A date counts as a table without
any of our names.  The source type can be given as a table whose only name is
its word.
-/

namespace FenceFacts

namespace SourceType

def word : SourceType → String
  | script => "script"
  | module => "module"
  | auto => "auto"

def ofWord? (t : Text) : Option SourceType :=
  [script, module, auto].find? fun s => s.word.toList = t

end SourceType

/-- The fields, unless one of another name than these is not sound. -/
def TomlFields.passing? (names : List String) (fields : TomlFields) : Option TomlFields :=
  if fields.all fun (name, value) => names.contains (String.ofList name) || value.isSound then
    some fields
  else none

namespace TomlValue

/-- The fields of what can stand for a table with these names. -/
def section? (names : List String) : TomlValue → Option TomlFields
  | table _ fields => TomlFields.passing? names fields
  | array elements => some ((names.map String.toList).zip elements)
  | tables elements => some ((names.map String.toList).zip (elements.map (table .header)))
  | date _ => some []
  | _ => none

def version? : TomlValue → Option UInt16
  | integer n => if 0 ≤ n ∧ n < UInt16.size then some (UInt16.ofNat n.toNat) else none
  | _ => none

def isEmpty : TomlValue → Bool
  | array [] | table _ [] => true
  | _ => false

def sourceType? : TomlValue → Option SourceType
  | string t => SourceType.ofWord? t
  | table _ [(name, value)] => if value.isEmpty then SourceType.ofWord? name else none
  | _ => none

def boolean? : TomlValue → Option Bool
  | boolean b => some b
  | _ => none

def text? : TomlValue → Option Text
  | string t => some t
  | _ => none

end TomlValue

/-- What a field says, or the default where it is missing. -/
def TomlFields.setting? {α : Type} (name : String) (default : α) (read? : TomlValue → Option α)
    (fields : TomlFields) : Option α :=
  (fields.lookup name.toList).elim (some default) read?

namespace Settings

def sectionNames : List String := ["extractor", "output"]

def extractorNames : List String := ["ecma_version", "source_type", "extract_lines"]

def outputNames : List String := ["facts_path"]

def ofFields? (fields : TomlFields) : Option Settings := do
  let fields ← fields.passing? sectionNames
  let extractor : TomlFields ← fields.setting? "extractor" [] (TomlValue.section? extractorNames)
  let output : TomlFields ← fields.setting? "output" [] (TomlValue.section? outputNames)
  let ecmaVersion ← extractor.setting? "ecma_version" 2020 TomlValue.version?
  let sourceType ← extractor.setting? "source_type" .auto TomlValue.sourceType?
  let extractLines ← extractor.setting? "extract_lines" true TomlValue.boolean?
  let factsPath ← output.setting? "facts_path" none fun v => v.text?.map some
  return { ecmaVersion, sourceType, extractLines, factsPath }

def read? (t : Text) : Option Settings := (TomlFields.read? t).bind ofFields?

/-- One setting, on a line of its own. -/
def writeField (name : String) (value : Text) : Text :=
  name.toList ++ " = ".toList ++ value ++ ['\n']

def write (s : Settings) : Text :=
  "[extractor]\n".toList ++
    writeField "ecma_version" (Nat.toDigits 10 s.ecmaVersion.toNat) ++
    writeField "source_type" (Text.writeToml s.sourceType.word.toList) ++
    writeField "extract_lines" (if s.extractLines then "true" else "false").toList ++
    "\n[output]\n".toList ++
    s.factsPath.elim [] fun path => writeField "facts_path" (Text.writeToml path)

end Settings

end FenceFacts
