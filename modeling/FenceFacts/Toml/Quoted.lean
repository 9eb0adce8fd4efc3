import FenceFacts.Text
import FenceFacts.Toml.Scalar

/-!
# FenceFacts — TOML strings

A string stands between double or single quotes, one of them or three.  Three
make it long: it may hold line ends, as they are written, and one or two
quotes in a row.  A line end right after the opening quotes does not count,
and up to two quotes before the closing ones do.

Between double quotes a backslash escapes a character, by a letter or by its
number.  In a long string a backslash at the end of a line swallows the blanks
and line ends up to the next character.

The reader takes one character at a time.  Its state is what the characters
so far leave open.
-/

namespace FenceFacts

-- ---------------------------------------------------------------------------
-- Characters
-- ---------------------------------------------------------------------------

def isTomlBlank (c : Char) : Bool := c = ' ' || c = '\t'

/-- Whether strings and comments may hold the character as it is.  Control
characters other than the tab are refused. -/
def isTomlChar (c : Char) : Bool := c = '\t' || (' ' ≤ c && c ≠ '\x7f')

/-- The letters that escape characters wherever strings are written. -/
def tomlWrittenEscapes : List (Char × Char) :=
  [('b', '\x08'), ('t', '\t'), ('n', '\n'), ('f', '\x0c'), ('r', '\r'), ('"', '"'), ('\\', '\\')]

/-- The letters that escape characters where strings are read. -/
def tomlEscapes : List (Char × Char) := ('e', '\x1b') :: tomlWrittenEscapes

/-- The letters that announce the number of a character, with its digits. -/
def tomlNumberEscapes : List (Char × Nat) := [('x', 2), ('u', 4), ('U', 8)]

/-- The character with this number. -/
def charOfNumber? (n : Nat) : Option Char :=
  if n.isValidChar then some (Char.ofNat n) else none

-- ---------------------------------------------------------------------------
-- Reading
-- ---------------------------------------------------------------------------

/-- The quotes of a string. -/
structure TomlQuotes where
  quote : Char
  long : Bool
  deriving DecidableEq, Repr

namespace TomlQuotes

/-- Whether a backslash escapes. -/
def hasEscapes (q : TomlQuotes) : Bool := q.quote = '"'

/-- What the characters of a string so far leave open. -/
inductive State
  | plain
  /-- So many quotes in a row, in a long string. -/
  | quotes (n : Nat)
  | escape
  /-- The number of a character, with so many digits to come. -/
  | number (missing value : Nat)
  /-- Blanks after a backslash, with a line end among them or not. -/
  | fold (lineEnded : Bool)
  deriving DecidableEq, Repr

/-- The text up to the closing quotes, and what follows them. -/
def readFrom (q : TomlQuotes) : State → Text → Option (Text × Text)
  | .quotes n, [] => if 3 ≤ n then some (List.replicate (n - 3) q.quote, []) else none
  | _, [] => none
  | state, c :: cs =>
    let push := fun (d : Char) (result : Option (Text × Text)) =>
      result.map fun (t, rest) => (d :: t, rest)
    let lineEnds := c = '\n' || (c = '\r' && cs.head? = some '\n')
    let afresh :=
      if c = q.quote then if q.long then readFrom q (.quotes 1) cs else some ([], cs)
      else if c = '\\' && q.hasEscapes then readFrom q .escape cs
      else if isTomlChar c || (lineEnds && q.long) then push c (readFrom q .plain cs)
      else none
    match state with
    | .plain => afresh
    | .quotes n =>
      if c = q.quote then if n < 5 then readFrom q (.quotes (n + 1)) cs else none
      else if n < 3 then afresh.map fun (t, rest) => (List.replicate n q.quote ++ t, rest)
      else some (List.replicate (n - 3) q.quote, c :: cs)
    | .escape =>
      match tomlEscapes.lookup c, tomlNumberEscapes.lookup c with
      | some d, _ => push d (readFrom q .plain cs)
      | none, some digits => readFrom q (.number digits 0) cs
      | none, none =>
        if q.long && (isTomlBlank c || lineEnds) then readFrom q (.fold (c = '\n')) cs else none
    | .number missing value =>
      match TomlScalar.digitBelow? 16 c with
      | none => none
      | some d =>
        let value := value * 16 + d
        if 1 < missing then readFrom q (.number (missing - 1) value) cs
        else (charOfNumber? value).bind fun d => push d (readFrom q .plain cs)
    | .fold lineEnded =>
      if isTomlBlank c || lineEnds then readFrom q (.fold (lineEnded || c = '\n')) cs
      else if lineEnded then afresh
      else none

/-- The quotes that a text begins with, and what follows them. -/
def opening? : Text → Option (TomlQuotes × Text)
  | '"' :: '"' :: '"' :: t => some (⟨'"', true⟩, t)
  | '"' :: t => some (⟨'"', false⟩, t)
  | '\'' :: '\'' :: '\'' :: t => some (⟨'\'', true⟩, t)
  | '\'' :: t => some (⟨'\'', false⟩, t)
  | _ => none

/-- A text without the line end that it begins with. -/
def withoutFirstBreak : Text → Text
  | '\n' :: t => t
  | '\r' :: '\n' :: t => t
  | t => t

/-- The string after opening quotes, and what follows it. -/
def read? (q : TomlQuotes) (t : Text) : Option (Text × Text) :=
  q.readFrom .plain (if q.long then withoutFirstBreak t else t)

end TomlQuotes

-- ---------------------------------------------------------------------------
-- Writing
-- ---------------------------------------------------------------------------

namespace TomlQuotes

/-- The quotes with their number. -/
def mark (q : TomlQuotes) : Text := List.replicate (if q.long then 3 else 1) q.quote

/-- How many quotes in a row the string may hold. -/
def quotesWithin (q : TomlQuotes) : Nat := if q.long then 2 else 0

/-- The length of the longest run of `c`, when `run` of them stand before. -/
def longestRun (c : Char) (run : Nat) : Text → Nat
  | [] => run
  | d :: t => if d = c then longestRun c (run + 1) t else max run (longestRun c 0 t)

/-- Whether a control character stands in the text that no string can hold. -/
def hasControl (t : Text) : Bool := t.any fun c => !isTomlChar c && c ≠ '\n'

/-- Whether the text can stand between the quotes and no character but the
tab needs an escape. -/
def holds (q : TomlQuotes) (t : Text) : Bool :=
  !hasControl t && !(q.hasEscapes && t.contains '\\') && (q.long || !t.contains '\n') &&
    longestRun q.quote 0 t ≤ q.quotesWithin

/-- The quotes in the order in which they are tried. -/
def preferred : List TomlQuotes := [⟨'"', false⟩, ⟨'\'', false⟩, ⟨'"', true⟩, ⟨'\'', true⟩]

/-- The quotes that a text is written between: the first ones that hold it,
or else double quotes, three of them where there are lines. -/
def choose (t : Text) : TomlQuotes :=
  (preferred.find? (·.holds t)).getD ⟨'"', t.contains '\n'⟩

def hexDigit (n : Nat) : Char := (Nat.digitChar n).toUpper

/-- A character between double quotes.  In front of it stand `run` quotes. -/
def escaped (q : TomlQuotes) (run : Nat) (c : Char) : Text :=
  if c = '\n' && q.long then [c]
  else if c = '"' && run < q.quotesWithin then [c]
  else
    match tomlWrittenEscapes.find? (·.2 = c) with
    | some (letter, _) => ['\\', letter]
    | none =>
      if isTomlChar c then [c]
      else ['\\', 'u', '0', '0', hexDigit (c.toNat / 16), hexDigit (c.toNat % 16)]

/-- A text between double quotes.  Quotes stand as they are up to the number
that may stand in a row. -/
def escapeAll (q : TomlQuotes) (run : Nat) : Text → Text
  | [] => []
  | c :: t =>
    let written := q.escaped run c
    written ++ escapeAll q (if written = ['"'] then run + 1 else 0) t

def write (q : TomlQuotes) (t : Text) : Text :=
  let break_ := if q.long && t.contains '\n' then ['\n'] else []
  q.mark ++ break_ ++ (if q.hasEscapes then q.escapeAll 0 t else t) ++ q.mark

end TomlQuotes

def Text.writeToml (t : Text) : Text := (TomlQuotes.choose t).write t

end FenceFacts
