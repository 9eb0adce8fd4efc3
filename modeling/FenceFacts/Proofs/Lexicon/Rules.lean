import FenceFacts.Proofs.Lexicon.Pattern
import FenceFacts.Script.Lexeme
import Mathlib

/-!
# FenceFacts — the rules for lexemes

The lexemes of a script as a table: for each kind the patterns of its texts.
Strings, closed or open, and numbers have two patterns each, every other kind
has one.  A literal that can stay open has a kind of its own for that, and its
pattern is the closed one without the closing delimiter.

Regular expressions are not in the table, as no pattern can tell them from
divisions, and neither are characters that start no lexeme.

## Results

* `blanks_matches_cons`, `ident_matches_cons`, … — the texts of each pattern,
  told by their first character and by the classes that the reader uses.
-/

namespace FenceFacts

open Pattern
open scoped Computability

namespace Lexicon

-- ---------------------------------------------------------------------------
-- Patterns
-- ---------------------------------------------------------------------------

def blanks : Pattern := plus (oneOf [' ', '\t', '\x0c'])

def lineEnd : Pattern := Pattern.optional (char '\r') * char '\n'

def lineComment : Pattern := char '/' * char '/' * star (noneOf ['\r', '\n'])

/-- No star with a slash behind it. -/
def commentBody : Pattern := star (noneOf ['*'] + plus (char '*') * noneOf ['*', '/'])

def blockComment : Pattern := char '/' * char '*' * commentBody * plus (char '*') * char '/'

def openComment : Pattern := char '/' * char '*' * commentBody * star (char '*')

/-- Characters as they are, and characters that a backslash takes along. -/
def quotedBody (plain escapable : CharSet) : Pattern := star (set plain + char '\\' * set escapable)

def stringBody (quote : Char) : Pattern :=
  quotedBody (.noneOf [quote, '\\', '\r', '\n']) (.noneOf ['\r', '\n'])

def string (quote : Char) : Pattern := char quote * stringBody quote * char quote

def openString (quote : Char) : Pattern := char quote * stringBody quote

def templateBody : Pattern := quotedBody (.noneOf ['\x60', '\\']) (.noneOf [])

def template : Pattern := char '\x60' * templateBody * char '\x60'

def openTemplate : Pattern := char '\x60' * templateBody

def digits : CharSet := { ranges := [('0', '9')] }

def numberParts : CharSet := { ranges := [('0', '9'), ('A', 'Z'), ('a', 'z'), ('_', '_')] }

def number : Pattern :=
  set digits * star (set numberParts) * Pattern.optional (char '.' * star (set numberParts))

def pointNumber : Pattern := char '.' * set digits * star (set numberParts)

/-- The last character there is. -/
def lastChar : Char := Char.ofNat 0x10FFFF

def identStarts : CharSet :=
  { ranges := [('A', 'Z'), ('a', 'z'), ('_', '_'), ('$', '$'), ('\u0080', lastChar)] }

def identParts : CharSet :=
  { ranges := [('A', 'Z'), ('a', 'z'), ('0', '9'), ('_', '_'), ('$', '$'), ('\u0080', lastChar)] }

def ident : Pattern := set identStarts * star (set identParts)

/-- Operators and separators. -/
def punctuation : CharSet :=
  .oneOf ['-', '+', '*', '/', '%', '=', '<', '>', '!', '&', '|', '^', '~', '?', ':', ';', ',', '.',
    '@', '#']

-- ---------------------------------------------------------------------------
-- The table
-- ---------------------------------------------------------------------------

/-- Texts of one kind of lexeme. -/
structure Rule where
  kind : TokenKind
  pattern : Pattern
  deriving DecidableEq, Repr

def rules : List Rule :=
  [⟨.whitespace, blanks⟩,
    ⟨.newline, lineEnd⟩,
    ⟨.lineComment, lineComment⟩,
    ⟨.blockComment, blockComment⟩,
    ⟨.unterminatedBlockComment, openComment⟩,
    ⟨.string, string '"'⟩,
    ⟨.string, string '\''⟩,
    ⟨.unterminatedString, openString '"'⟩,
    ⟨.unterminatedString, openString '\''⟩,
    ⟨.template, template⟩,
    ⟨.unterminatedTemplate, openTemplate⟩,
    ⟨.number, number⟩,
    ⟨.number, pointNumber⟩,
    ⟨.ident, ident⟩,
    ⟨.opening .round, char '('⟩,
    ⟨.closing .round, char ')'⟩,
    ⟨.opening .square, char '['⟩,
    ⟨.closing .square, char ']'⟩,
    ⟨.opening .curly, char '\x7b'⟩,
    ⟨.closing .curly, char '\x7d'⟩,
    ⟨.punct, set punctuation⟩]

/-- The texts of a kind. -/
def textsOf (kind : TokenKind) : Language Char :=
  {t | ∃ r ∈ rules, kind = r.kind ∧ r.pattern.Matches t}

theorem mem_textsOf {kind : TokenKind} {t : Text} :
    t ∈ textsOf kind ↔ ∃ r ∈ rules, kind = r.kind ∧ r.pattern.Matches t :=
  Iff.rfl

-- ---------------------------------------------------------------------------
-- Classes
-- ---------------------------------------------------------------------------

theorem has_blanks {c : Char} :
    (CharSet.oneOf [' ', '\t', '\x0c']).has c = true ↔ isHorizontalSpace c = true := by
  simp [isHorizontalSpace, or_assoc]

theorem has_digits {c : Char} : digits.has c = true ↔ c.isDigit = true := by
  simp [CharSet.has, digits, Char.isDigit, Char.le_def]

theorem has_numberParts {c : Char} : numberParts.has c = true ↔ isNumberPart c = true := by
  simp [CharSet.has, numberParts, isNumberPart, Char.isAlphanum, Char.isAlpha, Char.isUpper,
    Char.isLower, Char.isDigit, Char.le_def, UInt32.le_iff_toNat_le, ← Char.toNat_inj]
  omega

theorem le_lastChar (c : Char) : c ≤ lastChar := by
  have hnumber : c.toNat ≤ 0x10FFFF := by
    rcases c.valid with hlow | ⟨-, hhigh⟩
    · exact Nat.le_trans (Nat.le_of_lt hlow) (by decide)
    · exact Nat.le_of_lt_succ hhigh
  exact hnumber

theorem has_identStarts {c : Char} : identStarts.has c = true ↔ isIdentStart c = true := by
  have hlast := le_lastChar c
  simp [CharSet.has, identStarts, isIdentStart, Char.isAlpha, Char.isUpper, Char.isLower,
    Char.le_def, UInt32.le_iff_toNat_le, ← Char.toNat_inj] at hlast ⊢
  omega

theorem has_identParts {c : Char} : identParts.has c = true ↔ isIdentPart c = true := by
  have hsame : identParts.has c = (digits.has c || identStarts.has c) := by
    simp only [CharSet.has, identParts, digits, identStarts, List.any_cons, List.any_nil,
      Bool.bne_false, Bool.or_false]
    simp only [Bool.or_left_comm]
  rw [hsame, Bool.or_eq_true, has_digits, has_identStarts, isIdentPart, Bool.or_eq_true]

theorem has_plain {c : Char} :
    (CharSet.noneOf ['\r', '\n']).has c = true ↔ ¬ Text.isLineBreak c = true := by
  simp [Text.isLineBreak]

theorem has_punctuation {c : Char} : punctuation.has c = true ↔ isPunct c = true := by
  rw [punctuation, CharSet.has_oneOf, isPunct, List.contains_iff_mem]
  rfl

-- ---------------------------------------------------------------------------
-- The first character
-- ---------------------------------------------------------------------------

section Cons

variable {c : Char} {t : Text}

@[simp] theorem blanks_matches_cons :
    blanks.Matches (c :: t) ↔
      isHorizontalSpace c = true ∧ ∀ x ∈ t, isHorizontalSpace x = true := by
  simp only [Pattern.Matches, blanks, plus, Pattern.oneOf, language_mul, language_star,
    cons_mem_set_mul, mem_star_set, has_blanks]

@[simp] theorem lineEnd_matches_cons :
    lineEnd.Matches (c :: t) ↔ c = '\r' ∧ t = ['\n'] ∨ c = '\n' ∧ t = [] := by
  simp only [Pattern.Matches, lineEnd, Pattern.optional, language_mul, language_add,
    language_empty, add_mul, one_mul, Language.mem_add, cons_mem_char_mul, mem_char,
    List.cons_eq_cons]

@[simp] theorem lineComment_matches_cons :
    lineComment.Matches (c :: t) ↔
      c = '/' ∧ ∃ r, (∀ x ∈ r, ¬ Text.isLineBreak x = true) ∧ t = '/' :: r := by
  simp only [Pattern.Matches, lineComment, language_mul, language_star, mul_assoc,
    cons_mem_char_mul]
  simp only [mem_char_mul, Pattern.noneOf, mem_star_set, has_plain]

@[simp] theorem blockComment_matches_cons :
    blockComment.Matches (c :: t) ↔
      c = '/' ∧ ∃ r ∈ (commentBody * plus (char '*') * char '/').language, t = '*' :: r := by
  simp only [Pattern.Matches, blockComment, language_mul, mul_assoc, cons_mem_char_mul]
  simp only [mem_char_mul]

@[simp] theorem openComment_matches_cons :
    openComment.Matches (c :: t) ↔
      c = '/' ∧ ∃ r ∈ (commentBody * star (char '*')).language, t = '*' :: r := by
  simp only [Pattern.Matches, openComment, language_mul, mul_assoc, cons_mem_char_mul]
  simp only [mem_char_mul]

@[simp] theorem string_matches_cons {quote : Char} :
    (string quote).Matches (c :: t) ↔
      c = quote ∧ t ∈ (stringBody quote * char quote).language := by
  simp only [Pattern.Matches, string, language_mul, mul_assoc, cons_mem_char_mul]

@[simp] theorem openString_matches_cons {quote : Char} :
    (openString quote).Matches (c :: t) ↔ c = quote ∧ t ∈ (stringBody quote).language := by
  simp only [Pattern.Matches, openString, language_mul, cons_mem_char_mul]

@[simp] theorem template_matches_cons :
    template.Matches (c :: t) ↔
      c = '\x60' ∧ t ∈ (templateBody * char '\x60').language := by
  simp only [Pattern.Matches, template, language_mul, mul_assoc, cons_mem_char_mul]

@[simp] theorem openTemplate_matches_cons :
    openTemplate.Matches (c :: t) ↔ c = '\x60' ∧ t ∈ templateBody.language := by
  simp only [Pattern.Matches, openTemplate, language_mul, cons_mem_char_mul]

@[simp] theorem number_matches_cons :
    number.Matches (c :: t) ↔ c.isDigit = true ∧
      t ∈ (star (set numberParts) *
        Pattern.optional (char '.' * star (set numberParts))).language := by
  simp only [Pattern.Matches, number, language_mul, mul_assoc, cons_mem_set_mul,
    has_digits]

@[simp] theorem pointNumber_matches_cons :
    pointNumber.Matches (c :: t) ↔
      c = '.' ∧ ∃ d r, d.isDigit = true ∧ (∀ x ∈ r, isNumberPart x = true) ∧ t = d :: r := by
  simp only [Pattern.Matches, pointNumber, language_mul, language_star, mul_assoc,
    cons_mem_char_mul]
  refine and_congr_right fun _ => ?_
  cases t with
  | nil => simp [not_nil_mem_set_mul]
  | cons d r => simp [cons_mem_set_mul, mem_star_set, has_digits, has_numberParts]

@[simp] theorem ident_matches_cons :
    ident.Matches (c :: t) ↔ isIdentStart c = true ∧ ∀ x ∈ t, isIdentPart x = true := by
  simp only [Pattern.Matches, ident, language_mul, language_star, cons_mem_set_mul,
    mem_star_set, has_identStarts, has_identParts]

@[simp] theorem char_matches_cons {d : Char} : (char d).Matches (c :: t) ↔ c = d ∧ t = [] := by
  simp only [Pattern.Matches, mem_char, List.cons_eq_cons]

@[simp] theorem punctuation_matches_cons :
    (set punctuation).Matches (c :: t) ↔ isPunct c = true ∧ t = [] := by
  simp only [Pattern.Matches, cons_mem_set, has_punctuation]

end Cons

end Lexicon

end FenceFacts
