import FenceFacts.Proofs.Lexicon.Lexemes
import FenceFacts.Proofs.Reader
import FenceFacts.Proofs.TopLevel

/-!
# FenceFacts — division or regular expression

A `/` that starts no comment divides two operands or opens a regular
expression.  Where an operand has to come next it cannot divide, so it opens
an expression: at the start of a script, behind an opening bracket, a `}` or a
keyword that takes an operand, and behind an operator.  The second of two
equal signs, as in `x++`, is the end of an operand.

The reader carries one bit for this.  The bit is right in front of every `/`,
whatever has been read before the last significant token, and whatever blanks
and comments have been read behind it.

## Results

* `awaitsOperand_iff`         — what a single token leaves to come.
* `regexAllowed_behind_iff`   — the bit that the reader carries.
* `slash_is_decided_by_last_significant` — what that means for a `/`.
-/

namespace FenceFacts

-- ---------------------------------------------------------------------------
-- Where an operand comes next
-- ---------------------------------------------------------------------------

section AwaitsOperand

variable {t : Token} {previous : Option Token} {before earlier gap : List Token}

/-- The token is the second of two equal signs. -/
def Token.EndsDoubledSign (previous : Option Token) (t : Token) : Prop :=
  (t.reads "+" = true ∨ t.reads "-" = true) ∧
    ∃ p ∈ previous, p.kind = .punct ∧ p.text = t.text

/-- Behind the token an operand must come next.  `previous` is the token right
before it, trivia included. -/
def Token.AwaitsOperand (previous : Option Token) (t : Token) : Prop :=
  (∃ b, t.kind = .opening b) ∨ t.kind = .closing .curly ∨
    (t.kind = .ident ∧ ∃ word ∈ operandKeywords, t.reads word = true) ∨
    (t.kind = .punct ∧ ¬ t.EndsDoubledSign previous)

/-- Behind these tokens an operand must come next: nothing among them is
significant, or the last one that is awaits an operand. -/
def AwaitOperand (before : List Token) : Prop :=
  significant before = [] ∨
    ∃ earlier last gap, before = earlier ++ last :: gap ∧ last.isSignificant = true ∧
      significant gap = [] ∧ last.AwaitsOperand earlier.getLast?

theorem Token.endsDoubledSign_iff :
    t.EndsDoubledSign previous ↔
      (t.text = ['+'] ∨ t.text = ['-']) ∧
        previous.any (fun p => p.kind == .punct && p.text == t.text) = true := by
  rw [EndsDoubledSign, reads, reads, beq_iff_eq, beq_iff_eq, Option.any_eq_true]
  simp only [Bool.and_eq_true, beq_iff_eq]
  rfl

/-- The reader's rule for a single token. -/
theorem Token.awaitsOperand_iff :
    opensRegexAfter t.kind t.text previous = true ↔ t.AwaitsOperand previous := by
  rw [AwaitsOperand, endsDoubledSign_iff]
  cases hkind : t.kind with
  | punct =>
    simp only [opensRegexAfter, Bool.or_eq_true, decide_eq_true_eq]
    split
    · next hsign => simp [hsign]
    · next hother => simp [hother]
  | ident =>
    simp [opensRegexAfter, reads, eq_comm (a := t.text)]
  | closing b => cases b <;> simp [opensRegexAfter]
  | _ => simp [opensRegexAfter]

/-- Only **the last significant token** and the one right before it count. -/
theorem awaitOperand_behind_iff (ht : t.isSignificant = true) (hgap : significant gap = []) :
    AwaitOperand (earlier ++ t :: gap) ↔ t.AwaitsOperand earlier.getLast? := by
  constructor
  · rintro (hnone | ⟨earlier', last, gap', hsplit, hlast, hgap', hawaits⟩)
    · rw [significant_append, significant_cons_of_pos ht] at hnone
      exact absurd (List.append_eq_nil_iff.mp hnone).2 (List.cons_ne_nil _ _)
    · rw [← Token.awaitsOperand_iff, ← Reader.regexAllowed_behind hlast hgap', ← hsplit,
        Reader.regexAllowed_behind ht hgap, Token.awaitsOperand_iff] at hawaits
      exact hawaits
  · exact fun hawaits => Or.inr ⟨earlier, t, gap, rfl, ht, hgap, hawaits⟩

/-- The reader's bit says **whether an operand must come next**. -/
theorem regexAllowed_behind_iff (before : List Token) :
    (Reader.behind before).regexAllowed = true ↔ AwaitOperand before := by
  rcases exists_last_significant before with hnone | ⟨earlier, last, gap, rfl, hlast, hgap⟩
  · exact iff_of_true (Reader.regexAllowed_foldl hnone {}) (Or.inl hnone)
  · rw [Reader.regexAllowed_behind hlast hgap, Token.awaitsOperand_iff,
      awaitOperand_behind_iff hlast hgap]

end AwaitsOperand

-- ---------------------------------------------------------------------------
-- Lexemes that start with a slash
-- ---------------------------------------------------------------------------

theorem head?_text_nextLexeme (regexAllowed : Bool) (c : Char) (cs : Text) :
    (nextLexeme regexAllowed c cs).text.head? = some c := by
  have hsplit := nextLexeme_text_append_rest regexAllowed c cs
  obtain ⟨d, text, htext⟩ :=
    List.exists_cons_of_ne_nil (nextLexeme_text_ne_nil regexAllowed c cs)
  rw [htext, List.cons_append] at hsplit
  rw [htext, (List.cons.inj hsplit).1]
  rfl

theorem slash_cases (cs : Text) :
    (Lexeme.slash cs).kind.isComment = true ∨
      (∀ rest, cs ≠ '/' :: rest) ∧ (∀ rest, cs ≠ '*' :: rest) ∧
        Lexeme.slash cs = .single .punct '/' cs := by
  unfold Lexeme.slash
  split
  · exact Or.inl rfl
  · next rest =>
    refine Or.inl ?_
    cases hclosed : (blockCommentTail rest).closed <;>
      simp [Lexeme.delimited, hclosed, TokenKind.isComment]
  · next hline hblock => exact Or.inr ⟨hline, hblock, rfl⟩

/-- A lexeme that starts with a slash is a comment, or the reader's bit tells
what it is. -/
theorem nextLexeme_slash (regexAllowed : Bool) (cs : Text) :
    (nextLexeme regexAllowed '/' cs).kind.isComment = true ∨
      (∀ rest, cs ≠ '/' :: rest) ∧ (∀ rest, cs ≠ '*' :: rest) ∧
      nextLexeme regexAllowed '/' cs =
        if regexAllowed then
          .delimited .regex .unterminatedRegex ['/'] (regexTail false false cs)
        else .single .punct '/' cs := by
  have hscan : Lexeme.scan '/' cs = Lexeme.slash cs := rfl
  simp only [nextLexeme, hscan]
  rcases slash_cases cs with hcomment | ⟨hline, hblock, hpunct⟩
  · have hkind : (Lexeme.slash cs).kind ≠ .punct := by
      intro hkind
      rw [hkind] at hcomment
      cases hcomment
    refine Or.inl ?_
    rwa [beq_false_of_ne hkind, Bool.and_false, Bool.false_and, if_neg Bool.false_ne_true]
  · refine Or.inr ⟨hline, hblock, ?_⟩
    rw [hpunct]
    cases regexAllowed <;> rfl

theorem kind_delimited (closed unterminated : TokenKind) (delimiter : Text) (tail : Tail) :
    (Lexeme.delimited closed unterminated delimiter tail).kind = closed ∨
      (Lexeme.delimited closed unterminated delimiter tail).kind = unterminated := by
  simp only [Lexeme.delimited]
  split
  · exact Or.inl rfl
  · exact Or.inr rfl

-- ---------------------------------------------------------------------------
-- Scripts
-- ---------------------------------------------------------------------------

/-- A token that starts with a slash and is no comment opens a regular
expression **exactly if an operand must come next**, and is the operator `/`
if not.  That depends on the last significant token before it and on the token
right before that one, and on nothing else. -/
theorem slash_is_decided_by_last_significant (script : Text) (before after : List Token)
    (t : Token) (hsplit : tokenize script = before ++ t :: after)
    (hslash : t.text.head? = some '/') (hcomment : t.kind.isComment = false) :
    (t.kind = .regex ∨ t.kind = .unterminatedRegex ↔ AwaitOperand before) ∧
    (¬ AwaitOperand before → t.kind = .punct ∧ t.text = ['/']) ∧
    ∀ earlier last gap, before = earlier ++ last :: gap → last.isSignificant = true →
      significant gap = [] → (AwaitOperand before ↔ last.AwaitsOperand earlier.getLast?) := by
  obtain ⟨c, cs, -, hkind, htext⟩ := Reader.exists_nextLexeme_behind hsplit
  rw [htext, head?_text_nextLexeme] at hslash
  obtain rfl := Option.some.inj hslash
  rw [hkind] at hcomment
  obtain ⟨-, -, hlexeme⟩ := (nextLexeme_slash (Reader.behind before).regexAllowed cs).resolve_left
    (Bool.eq_false_iff.mp hcomment)
  rw [hlexeme] at hkind htext
  rw [← regexAllowed_behind_iff]
  refine ⟨?_, fun hrefused => ?_, ?_⟩
  · cases hallowed : (Reader.behind before).regexAllowed with
    | true =>
      rw [hkind, hallowed, if_pos rfl]
      exact iff_of_true (kind_delimited _ _ _ _) rfl
    | false =>
      rw [hkind, hallowed, if_neg Bool.false_ne_true]
      exact iff_of_false (fun hregex => hregex.elim nofun nofun) Bool.false_ne_true
  · rw [hkind, htext, if_neg hrefused]
    exact ⟨rfl, rfl⟩
  · rintro earlier last gap rfl hlast hgap
    rw [regexAllowed_behind_iff, awaitOperand_behind_iff hlast hgap]

/-- Two signs apart from each other, and a comment and a line end before the
slash. -/
def signsApart : Text := ['+', ' ', '+', '/', '*', ';', '*', '/', '\n', '/', 'a', '/']

/-- They are no doubled sign, so an operand comes next. -/
theorem slash_is_decided_by_last_significant_signsApart :
    ∃ before t, tokenize signsApart = before ++ [t] ∧ t.text = ['/', 'a', '/'] ∧
      AwaitOperand before ∧ (t.kind = .regex ∨ t.kind = .unterminatedRegex) := by
  have hsplit : tokenize signsApart =
      [⟨.punct, ['+'], 0, 1⟩, ⟨.whitespace, [' '], 1, 2⟩, ⟨.punct, ['+'], 2, 3⟩,
        ⟨.blockComment, ['/', '*', ';', '*', '/'], 3, 8⟩, ⟨.newline, ['\n'], 8, 9⟩] ++
      [⟨.regex, ['/', 'a', '/'], 9, 12⟩] := by decide +kernel
  have hoperand := (regexAllowed_behind_iff
    [⟨.punct, ['+'], 0, 1⟩, ⟨.whitespace, [' '], 1, 2⟩, ⟨.punct, ['+'], 2, 3⟩,
      ⟨.blockComment, ['/', '*', ';', '*', '/'], 3, 8⟩, ⟨.newline, ['\n'], 8, 9⟩]).mp (by decide)
  exact ⟨_, _, hsplit, rfl, hoperand,
    (slash_is_decided_by_last_significant signsApart _ [] _ hsplit rfl rfl).1.mpr hoperand⟩

end FenceFacts
