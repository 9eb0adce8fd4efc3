import FenceFacts.Script.Lexeme

/-!
# FenceFacts — reading a script as tokens

A script is read lexeme by lexeme until nothing is left.  The one decision
that a lexeme cannot make for itself is whether a `/` divides or opens a
regular expression.  The token before it tells: after an operator, an opening
bracket, a closing curly one or a keyword such as `return` an operand must
follow, so the `/` opens an expression; after anything else it divides.  A
doubled sign, as in `x++ / 2`, ends an operand.  Trivia and comments do not
count as the token before.

## Results

* `flatten_text_tokenize` — the texts of the tokens are the script.
-/

namespace FenceFacts

/-- Keywords that an operand follows. -/
def operandKeywords : List String :=
  ["await", "case", "delete", "do", "else", "in", "instanceof", "new", "of", "return", "throw",
    "typeof", "void", "yield"]

/-- A `/` behind a significant token of this kind and text opens a regular
expression.  `previous` is the token right before it, trivia included. -/
def opensRegexAfter (kind : TokenKind) (text : Text) (previous : Option Token) : Bool :=
  match kind with
  | .punct =>
    if text = ['+'] || text = ['-'] then
      !previous.any fun p => p.kind == .punct && p.text == text
    else true
  | .opening _ | .closing .curly => true
  | .ident => operandKeywords.any fun word => word.toList == text
  | _ => false

/-- The lexeme at the front of a script whose `/` opens a regular expression
when `regexAllowed` is set. -/
def nextLexeme (regexAllowed : Bool) (c : Char) (rest : Text) : Lexeme :=
  let lexeme := Lexeme.scan c rest
  if regexAllowed && lexeme.kind == .punct && lexeme.text == ['/'] then
    .delimited .regex .unterminatedRegex ['/'] (regexTail false false lexeme.rest)
  else lexeme

theorem nextLexeme_text_append_rest (regexAllowed : Bool) (c : Char) (t : Text) :
    (nextLexeme regexAllowed c t).text ++ (nextLexeme regexAllowed c t).rest = c :: t := by
  have h := Lexeme.scan_text_append_rest c t
  simp only [nextLexeme]
  split
  · next hs =>
    simp only [Bool.and_eq_true, beq_iff_eq] at hs
    rw [hs.2] at h
    simp [Lexeme.delimited, regexTail_text_append_rest, ← h]
  · exact h

theorem nextLexeme_text_ne_nil (regexAllowed : Bool) (c : Char) (t : Text) :
    (nextLexeme regexAllowed c t).text ≠ [] := by
  simp only [nextLexeme]
  split
  · simp [Lexeme.delimited]
  · exact Lexeme.scan_text_ne_nil c t

/-- What follows a lexeme is shorter, which ends the reading. -/
theorem nextLexeme_rest_length_lt (regexAllowed : Bool) (c : Char) (t : Text) :
    (nextLexeme regexAllowed c t).rest.length < (c :: t).length := by
  rw [← nextLexeme_text_append_rest regexAllowed c t, List.length_append]
  have := List.length_pos_iff.mpr (nextLexeme_text_ne_nil regexAllowed c t)
  omega

/-- The tokens of `t`, which starts at byte `offset` of the script, behind
the token `previous`. -/
def tokenizeFrom (offset : Nat) (regexAllowed : Bool) (previous : Option Token) :
    Text → List Token
  | [] => []
  | c :: cs =>
    let lexeme := nextLexeme regexAllowed c cs
    let token : Token :=
      ⟨lexeme.kind, lexeme.text, offset, offset + lexeme.text.byteLength⟩
    let regexAllowed :=
      if token.isSignificant then opensRegexAfter token.kind token.text previous
      else regexAllowed
    token :: tokenizeFrom token.span.stop regexAllowed (some token) lexeme.rest
termination_by t => t.length
decreasing_by exact nextLexeme_rest_length_lt _ _ _

/-- The tokens of a script. -/
def tokenize (script : Text) : List Token := tokenizeFrom 0 true none script

theorem flatten_text_tokenizeFrom (offset : Nat) (regexAllowed : Bool) (previous : Option Token)
    (t : Text) : ((tokenizeFrom offset regexAllowed previous t).map Token.text).flatten = t := by
  fun_induction tokenizeFrom offset regexAllowed previous t with
  | case1 => rfl
  | case2 offset regexAllowed previous c cs lexeme token regexAllowed' ih =>
    rw [List.map_cons, List.flatten_cons, ih]
    exact nextLexeme_text_append_rest regexAllowed c cs

/-- Reading is **lossless**: the texts of the tokens, in order, are the script. -/
theorem flatten_text_tokenize (script : Text) :
    ((tokenize script).map Token.text).flatten = script :=
  flatten_text_tokenizeFrom 0 true none script

end FenceFacts
