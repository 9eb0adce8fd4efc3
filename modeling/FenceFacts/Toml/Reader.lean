import FenceFacts.Toml.Quoted
import FenceFacts.Toml.Table

/-!
# FenceFacts — reading TOML

The grammar of TOML documents.  A reader takes what it reads from the front
of a text, or refuses the text.  Lines are read first and then put together,
so that what a line says and what it may say after others are two questions.

Brackets nest up to a fixed depth, and a key has no more names than that.
Between brackets there can be line ends and comments, except inside a key, and
a comma can stand behind the last element.
-/

namespace FenceFacts

/-- Takes what it reads from the front of a text. -/
abbrev TomlReader := StateT Text Option

namespace TomlReader

variable {α : Type}

-- ---------------------------------------------------------------------------
-- Blanks, comments and line ends
-- ---------------------------------------------------------------------------

/-- What follows blanks, line ends and comments.  A comment can be open. -/
def afterGaps? (comment : Bool) : Text → Option Text
  | [] => some []
  | c :: cs =>
    if c = '\n' then afterGaps? false cs
    else if c = '\r' && cs.head? = some '\n' then afterGaps? comment cs
    else if comment then if isTomlChar c then afterGaps? true cs else none
    else if isTomlBlank c then afterGaps? false cs
    else if c = '#' then afterGaps? true cs
    else some (c :: cs)

/-- What follows the end of a line, which blanks and a comment can precede. -/
def afterLine? (comment : Bool) : Text → Option Text
  | [] => some []
  | c :: cs =>
    if c = '\n' then some cs
    else if c = '\r' && cs.head? = some '\n' then afterLine? comment cs
    else if comment then if isTomlChar c then afterLine? true cs else none
    else if isTomlBlank c then afterLine? false cs
    else if c = '#' then afterLine? true cs
    else none

/-- Goes on where `f` says. -/
def skip (f : Text → Option Text) : TomlReader Unit := fun t => (f t).map fun rest => ((), rest)

def skipBlanks : TomlReader Unit := modify (List.dropWhile isTomlBlank)

def skipGaps : TomlReader Unit := skip (afterGaps? false)

def expect (c : Char) : TomlReader Unit := skip (TomlScalar.after? c)

/-- Takes the characters at the front that have a property. -/
def takeRun (p : Char → Bool) : TomlReader Text := fun t => some (t.takeWhile p, t.dropWhile p)

-- ---------------------------------------------------------------------------
-- Keys
-- ---------------------------------------------------------------------------

/-- The characters of keys without quotes. -/
def isBareChar (c : Char) : Bool := c.isAlphanum || c = '_' || c = '-'

def name : TomlReader Text := do
  match TomlQuotes.opening? (← get) with
  | some (quotes, rest) =>
    if quotes.long then failure
    set rest
    StateT.mk quotes.read?
  | none =>
    let bare ← takeRun isBareChar
    if bare.isEmpty then failure
    return bare

/-- The names of a key, with dots between them; at most `n` of them. -/
def names : Nat → TomlReader TomlKey
  | 0 => failure
  | n + 1 => do
    skipBlanks
    let first ← name
    skipBlanks
    match ← get with
    | '.' :: rest =>
      set rest
      let key ← names n
      return { key with parents := first :: key.parents }
    | _ => return { name := first }

/-- How deep brackets can nest, and how many names a key can have. -/
def deepest : Nat := 80

def key : TomlReader TomlKey := names deepest

/-- A key and its value.  `gap` skips what can stand around the sign between
them. -/
def field (gap : TomlReader Unit) (value : TomlReader TomlValue) :
    TomlReader (TomlKey × TomlValue) := do
  let key ← key
  gap
  expect '='
  gap
  return (key, ← value)

-- ---------------------------------------------------------------------------
-- Values
-- ---------------------------------------------------------------------------

/-- The characters that end a value without quotes and brackets. -/
def scalarEnds : List Char := ['=', ',', '[', ']', '\x7b', '\x7d', '#', '\r', '\n']

/-- The characters of a value without quotes and brackets, and blanks behind
it.  No quote stands behind a blank or a dot, and no dot behind a blank. -/
def scalarRun (previous : Char) : Text → Text
  | [] => []
  | c :: t =>
    let afterBlank := isTomlBlank previous
    let stops :=
      if c = '.' then afterBlank
      else if c = '"' || c = '\'' then afterBlank || previous = '.'
      else c ∈ scalarEnds
    if stops then [] else c :: scalarRun c t

/-- A value without quotes and brackets.  It can hold blanks, but does not end
with them. -/
def scalar : TomlReader TomlValue := fun t =>
  let run := (scalarRun '.' t).reverse.dropWhile isTomlBlank |>.reverse
  (TomlScalar.value? run).map fun value => (value, t.drop run.length)

/-- A value without brackets. -/
def leaf : TomlReader TomlValue := do
  match TomlQuotes.opening? (← get) with
  | some (quotes, rest) =>
    set rest
    return .string (← StateT.mk quotes.read?)
  | none => scalar

/-- Elements up to the closing bracket, with commas between them; at most `n`
times a comma or the bracket. -/
def elements (close : Char) (element : TomlReader α) : Nat → TomlReader (List α)
  | 0 => failure
  | n + 1 => do
    skipGaps
    match TomlScalar.after? close (← get) with
    | some rest =>
      set rest
      return []
    | none =>
      let first ← element
      skipGaps
      match ← get with
      | ',' :: rest =>
        set rest
        return first :: (← elements close element n)
      | _ =>
        expect close
        return [first]

/-- The table that fields in braces make up. -/
def inlineTable? (fields : List (TomlKey × TomlValue)) : Option TomlValue := do
  let fields ← fields.foldlM (fun table (key, value) =>
    TomlFields.define key value .inline table) ([] : TomlFields)
  return .table .inline fields

/-- A value in which brackets nest up to a depth. -/
def value : Nat → TomlReader TomlValue
  | 0 => leaf
  | depth + 1 => do
    match ← get with
    | '[' :: rest =>
      set rest
      return .array (← elements ']' (value depth) rest.length)
    | '\x7b' :: rest =>
      set rest
      let fields ← elements '\x7d' (field skipGaps (value depth)) rest.length
      StateT.lift (inlineTable? fields)
    | _ => leaf

-- ---------------------------------------------------------------------------
-- Documents
-- ---------------------------------------------------------------------------

def line : TomlReader TomlLine := do
  match ← get with
  | '[' :: '[' :: rest =>
    set rest
    let key ← key
    expect ']'
    expect ']'
    return .element key
  | '[' :: rest =>
    set rest
    let key ← key
    expect ']'
    return .header key
  | _ =>
    let (key, value) ← field skipBlanks (value deepest)
    return .field key value

/-- The lines up to the end of the text; at most `n` lines that say anything. -/
def lines : Nat → TomlReader (List TomlLine)
  | 0 => failure
  | n + 1 => do
    skipGaps
    if (← get).isEmpty then return []
    let first ← line
    skip (afterLine? false)
    return first :: (← lines n)

end TomlReader

/-- The mark that can stand at the front of a text to tell its encoding. -/
def byteOrderMark : Char := '\uFEFF'

def TomlFields.read? (t : Text) : Option TomlFields := do
  let t := (TomlScalar.after? byteOrderMark t).getD t
  let (lines, _) ← (TomlReader.lines (t.length + 1)).run t
  TomlFields.ofLines? lines

end FenceFacts
