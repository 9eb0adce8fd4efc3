import FenceFacts.Text

/-!
# FenceFacts — JSON texts

How values are written in JSON.  In a string the quote, the backslash and the
control characters below U+0020 are escaped, by a letter where JSON has one;
every other character stands for itself.  Objects have no blanks, and their
fields stand in the order they are given in.

A value is written piece by piece.  Marks, numbers and escapes are pieces, and
so are the runs of characters in strings that stand for themselves.  What is
written is the pieces one after another.
-/

namespace FenceFacts

/-- A written value in its pieces. -/
abbrev JsonPieces := List Text

-- ---------------------------------------------------------------------------
-- Strings
-- ---------------------------------------------------------------------------

/-- The letters with which JSON escapes characters. -/
def jsonEscapes : List (Char × Char) :=
  [('"', '"'), ('\\', '\\'), ('\x08', 'b'), ('\x0c', 'f'), ('\n', 'n'), ('\r', 'r'), ('\t', 't')]

/-- The escape of a character, if it has one. -/
def jsonEscape? (c : Char) : Option Text :=
  match jsonEscapes.lookup c with
  | some letter => some ['\\', letter]
  | none =>
    if c < ' ' then
      some ['\\', 'u', '0', '0', Nat.digitChar (c.toNat / 16), Nat.digitChar (c.toNat % 16)]
    else none

def jsonChar (c : Char) : Text := (jsonEscape? c).getD [c]

/-- The characters between the quotes of a string.  Escapes stand alone, and
what stands between them stays together. -/
def jsonRuns (t : Text) : JsonPieces :=
  (t.splitBy fun a b => (jsonEscape? a).isNone && (jsonEscape? b).isNone).map (·.flatMap jsonChar)

def jsonString (t : Text) : JsonPieces := ['"'] :: jsonRuns t ++ [['"']]

def jsonWord (word : String) : JsonPieces := jsonString word.toList

-- ---------------------------------------------------------------------------
-- Other values
-- ---------------------------------------------------------------------------

def jsonNumber (n : Nat) : JsonPieces := [Nat.toDigits 10 n]

def jsonBool (b : Bool) : JsonPieces := [(if b then "true" else "false").toList]

def jsonField (key : String) (value : JsonPieces) : JsonPieces := jsonWord key ++ [':'] :: value

def jsonObject (fields : List (String × JsonPieces)) : JsonPieces :=
  ['\x7b'] :: [[',']].intercalate (fields.map fun (key, value) => jsonField key value) ++ [['\x7d']]

end FenceFacts
