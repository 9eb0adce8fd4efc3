import FenceFacts.Text
import FenceFacts.Span

/-!
# FenceFacts — tokens

The kinds of lexeme a script is made of.  Blanks and line ends are tokens as
well, so the texts of all tokens in order are the script.  A literal or
comment whose closing delimiter is missing has a kind of its own, and so has
a character that starts no lexeme.
-/

namespace FenceFacts

-- ---------------------------------------------------------------------------
-- Brackets
-- ---------------------------------------------------------------------------

inductive Bracket
  | round
  | square
  | curly
  deriving DecidableEq, Repr

namespace Bracket

/-- The pair that `c` opens. -/
def opened? : Char → Option Bracket
  | '(' => some .round
  | '[' => some .square
  | '\x7b' => some .curly
  | _ => none

/-- The pair that `c` closes. -/
def closed? : Char → Option Bracket
  | ')' => some .round
  | ']' => some .square
  | '\x7d' => some .curly
  | _ => none

end Bracket

-- ---------------------------------------------------------------------------
-- Kinds
-- ---------------------------------------------------------------------------

inductive TokenKind
  /-- Spaces, tabs and form feeds. -/
  | whitespace
  /-- A line feed, with the carriage return right before it. -/
  | newline
  | lineComment
  | blockComment
  | unterminatedBlockComment
  | string
  | unterminatedString
  | template
  | unterminatedTemplate
  | number
  /-- Identifiers and keywords. -/
  | ident
  | opening (b : Bracket)
  | closing (b : Bracket)
  /-- Operators and separators, one character each. -/
  | punct
  | regex
  | unterminatedRegex
  /-- A character that starts no other token. -/
  | unknown
  deriving DecidableEq, Repr

namespace TokenKind

/-- Blanks and line ends. -/
def isTrivia : TokenKind → Bool
  | whitespace | newline => true
  | _ => false

def isComment : TokenKind → Bool
  | lineComment | blockComment | unterminatedBlockComment => true
  | _ => false

/-- Neither trivia nor comment. -/
def isSignificant (k : TokenKind) : Bool := !k.isTrivia && !k.isComment

/-- The kind that closes an opening bracket. -/
def closer? : TokenKind → Option TokenKind
  | opening b => some (closing b)
  | _ => none

def isCloser : TokenKind → Bool
  | closing _ => true
  | _ => false

end TokenKind

-- ---------------------------------------------------------------------------
-- Tokens
-- ---------------------------------------------------------------------------

/-- A lexeme with its place in the script. -/
structure Token where
  kind : TokenKind
  text : Text
  span : Span
  deriving DecidableEq, Repr

namespace Token

def isSignificant (t : Token) : Bool := t.kind.isSignificant

def reads (t : Token) (word : String) : Bool := t.text == word.toList

end Token

def significant (tokens : List Token) : List Token := tokens.filter Token.isSignificant

end FenceFacts
