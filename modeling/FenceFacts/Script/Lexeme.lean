import FenceFacts.Text.Alphanumeric
import FenceFacts.Script.Token

/-!
# FenceFacts — lexemes

One lexeme off the front of a script.  The first character tells which rule
applies, and each rule takes as much as it can:

* blanks, line ends, identifiers and numbers are runs of characters;
* a comment, string or template runs to its closing delimiter, and where that
  is missing its unterminated kind takes what is left of it: a comment the
  whole rest, a template the whole rest, a string the rest of its line.  A
  backslash takes the next character along; one with no character to take
  (at the end of the line for a string, of the script for a template) ends an
  unterminated literal before itself.

A `/` alone is an operator here.  Whether it opens a regular expression
depends on what stands before it, so `Script/Lexer.lean` decides that and
takes the rest of the literal with `regexTail`.

## Results

* `scan_text_append_rest` — a lexeme and what follows it are the script.
* `scan_text_ne_nil`      — a lexeme is never empty.
-/

namespace FenceFacts

-- ---------------------------------------------------------------------------
-- Character classes
-- ---------------------------------------------------------------------------

/-- Space, tab or form feed. -/
def isHorizontalSpace (c : Char) : Bool := c == ' ' || c == '\t' || c == '\x0c'

/-- What may stand in a number after its first digit. -/
def isNumberPart (c : Char) : Bool := c.isAlphanum || c == '_'

/-- Every character outside ASCII may stand in an identifier. -/
def isIdentStart (c : Char) : Bool := c.isAlpha || c == '_' || c == '$' || 0x80 ≤ c.toNat

def isIdentPart (c : Char) : Bool := c.isDigit || isIdentStart c

def isPunct (c : Char) : Bool := "-+*/%=<>!&|^~?:;,.@#".toList.contains c

/-- What may stand in the flags of a regular expression. -/
def isFlag (c : Char) : Bool := isAlphanumeric c || c == '_' || c == '$'

-- ---------------------------------------------------------------------------
-- Tails of delimited lexemes
-- ---------------------------------------------------------------------------

/-- How a delimited lexeme goes on after its opening delimiter. -/
structure Tail where
  /-- The closing delimiter was found; it is the end of `text`. -/
  closed : Bool
  text : Text
  rest : Text
  deriving DecidableEq, Repr

namespace Tail

/-- The same tail with `c` read before it. -/
def cons (c : Char) (t : Tail) : Tail := { t with text := c :: t.text }

/-- Nothing more belongs to the lexeme, which stays open. -/
def stop (rest : Text) : Tail := ⟨false, [], rest⟩

end Tail

/-- After `/*`: up to the first `*/`. -/
def blockCommentTail : Text → Tail
  | [] => .stop []
  | '*' :: '/' :: rest => ⟨true, ['*', '/'], rest⟩
  | c :: rest => (blockCommentTail rest).cons c

/-- After an opening quote: up to the next one on the line that no backslash
takes along. -/
def stringTail (quote : Char) : Text → Tail
  | [] => .stop []
  | '\\' :: c :: rest =>
    if Text.isLineBreak c then .stop ('\\' :: c :: rest)
    else ((stringTail quote rest).cons c).cons '\\'
  | c :: rest =>
    if c = quote then ⟨true, [c], rest⟩
    else if Text.isLineBreak c || c = '\\' then .stop (c :: rest)
    else (stringTail quote rest).cons c

/-- After an opening backtick: up to the next one that no backslash takes
along. -/
def templateTail : Text → Tail
  | [] => .stop []
  | '\\' :: c :: rest => ((templateTail rest).cons c).cons '\\'
  | c :: rest =>
    if c = '\x60' then ⟨true, [c], rest⟩
    else if c = '\\' then .stop (c :: rest)
    else (templateTail rest).cons c

/-- After the opening `/` of a regular expression: up to the next one on the
line that is neither escaped nor in a class, and the flags behind it. -/
def regexTail (inClass escaped : Bool) : Text → Tail
  | [] => .stop []
  | c :: rest =>
    if Text.isLineBreak c then .stop (c :: rest)
    else if escaped then (regexTail inClass false rest).cons c
    else if c = '\\' then (regexTail inClass true rest).cons c
    else if c = '[' then (regexTail true false rest).cons c
    else if c = ']' then (regexTail false false rest).cons c
    else if c = '/' && !inClass then ⟨true, c :: rest.takeWhile isFlag, rest.dropWhile isFlag⟩
    else (regexTail inClass false rest).cons c

-- ---------------------------------------------------------------------------
-- Lexemes
-- ---------------------------------------------------------------------------

/-- A lexeme and the script behind it. -/
structure Lexeme where
  kind : TokenKind
  text : Text
  rest : Text
  deriving DecidableEq, Repr

namespace Lexeme

/-- One character. -/
def single (kind : TokenKind) (c : Char) (rest : Text) : Lexeme := ⟨kind, [c], rest⟩

/-- The character `c` and all that follows in the class `p`. -/
def run (kind : TokenKind) (p : Char → Bool) (c : Char) (rest : Text) : Lexeme :=
  ⟨kind, c :: rest.takeWhile p, rest.dropWhile p⟩

/-- An opening delimiter with its tail; the kind tells whether it is closed. -/
def delimited (closed unterminated : TokenKind) (delimiter : Text) (tail : Tail) : Lexeme :=
  ⟨if tail.closed then closed else unterminated, delimiter ++ tail.text, tail.rest⟩

/-- A digit, what follows it, and a fraction if a point comes next. -/
def number (c : Char) (rest : Text) : Lexeme :=
  match rest.dropWhile isNumberPart with
  | '.' :: fraction =>
    ⟨.number, c :: rest.takeWhile isNumberPart ++ '.' :: fraction.takeWhile isNumberPart,
      fraction.dropWhile isNumberPart⟩
  | rest' => ⟨.number, c :: rest.takeWhile isNumberPart, rest'⟩

/-- A comment, or the operator `/`. -/
def slash : Text → Lexeme
  | '/' :: rest =>
    ⟨.lineComment, '/' :: '/' :: rest.takeWhile (!Text.isLineBreak ·),
      rest.dropWhile (!Text.isLineBreak ·)⟩
  | '*' :: rest =>
    delimited .blockComment .unterminatedBlockComment ['/', '*'] (blockCommentTail rest)
  | rest => single .punct '/' rest

/-- A number that starts with its point, or the operator `.`. -/
def point : Text → Lexeme
  | c :: rest =>
    if c.isDigit then ⟨.number, '.' :: c :: rest.takeWhile isNumberPart, rest.dropWhile isNumberPart⟩
    else single .punct '.' (c :: rest)
  | [] => single .punct '.' []

/-- A line end, where a line feed follows the carriage return. -/
def carriageReturn : Text → Lexeme
  | '\n' :: rest => ⟨.newline, ['\r', '\n'], rest⟩
  | rest => single .unknown '\r' rest

/-- The lexeme that starts with `c`, followed by `rest`. -/
def scan (c : Char) (rest : Text) : Lexeme :=
  if isHorizontalSpace c then run .whitespace isHorizontalSpace c rest
  else if c = '\n' then single .newline c rest
  else if c = '\r' then carriageReturn rest
  else if c = '/' then slash rest
  else if c = '"' || c = '\'' then
    delimited .string .unterminatedString [c] (stringTail c rest)
  else if c = '\x60' then delimited .template .unterminatedTemplate [c] (templateTail rest)
  else if c.isDigit then number c rest
  else if c = '.' then point rest
  else if isIdentStart c then run .ident isIdentPart c rest
  else
    match Bracket.opened? c, Bracket.closed? c with
    | some b, _ => single (.opening b) c rest
    | none, some b => single (.closing b) c rest
    | none, none => single (if isPunct c then .punct else .unknown) c rest

end Lexeme

-- ---------------------------------------------------------------------------
-- Nothing is lost
-- ---------------------------------------------------------------------------

theorem blockCommentTail_text_append_rest (t : Text) :
    (blockCommentTail t).text ++ (blockCommentTail t).rest = t := by
  fun_induction blockCommentTail t <;> simp_all [Tail.stop, Tail.cons]

theorem stringTail_text_append_rest (quote : Char) (t : Text) :
    (stringTail quote t).text ++ (stringTail quote t).rest = t := by
  fun_induction stringTail quote t <;> simp_all [Tail.stop, Tail.cons]

theorem templateTail_text_append_rest (t : Text) :
    (templateTail t).text ++ (templateTail t).rest = t := by
  fun_induction templateTail t <;> simp_all [Tail.stop, Tail.cons]

theorem regexTail_text_append_rest (inClass escaped : Bool) (t : Text) :
    (regexTail inClass escaped t).text ++ (regexTail inClass escaped t).rest = t := by
  fun_induction regexTail inClass escaped t <;>
    simp_all [Tail.stop, Tail.cons, List.takeWhile_append_dropWhile]

namespace Lexeme

theorem slash_text_append_rest (t : Text) : (slash t).text ++ (slash t).rest = '/' :: t := by
  unfold slash
  split <;> simp [delimited, single, List.takeWhile_append_dropWhile,
    blockCommentTail_text_append_rest]

theorem point_text_append_rest (t : Text) : (point t).text ++ (point t).rest = '.' :: t := by
  unfold point
  repeat' split
  all_goals simp [single, List.takeWhile_append_dropWhile]

theorem number_text_append_rest (c : Char) (t : Text) :
    (number c t).text ++ (number c t).rest = c :: t := by
  unfold number
  split
  · next fraction h =>
    have := List.takeWhile_append_dropWhile (p := isNumberPart) (l := t)
    rw [h] at this
    simp [List.takeWhile_append_dropWhile, this]
  · simp [List.takeWhile_append_dropWhile]

theorem carriageReturn_text_append_rest (t : Text) :
    (carriageReturn t).text ++ (carriageReturn t).rest = '\r' :: t := by
  unfold carriageReturn
  split <;> simp [single]

/-- A lexeme and what follows it are the script it was taken from. -/
theorem scan_text_append_rest (c : Char) (t : Text) :
    (scan c t).text ++ (scan c t).rest = c :: t := by
  unfold scan
  repeat' split
  all_goals
    simp_all [run, single, delimited, List.takeWhile_append_dropWhile,
      slash_text_append_rest, point_text_append_rest, number_text_append_rest,
      carriageReturn_text_append_rest, stringTail_text_append_rest,
      templateTail_text_append_rest]

/-- A lexeme is never empty. -/
theorem scan_text_ne_nil (c : Char) (t : Text) : (scan c t).text ≠ [] := by
  unfold scan
  repeat' split
  all_goals
    simp_all [run, single, delimited, slash, point, number, carriageReturn]
  all_goals
    repeat' split
    all_goals simp

end Lexeme

end FenceFacts
