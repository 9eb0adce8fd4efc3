import FenceFacts.Proofs.Lexicon.Lookahead
import FenceFacts.Proofs.Lexicon.Slash

/-!
# FenceFacts — reading line by line

A script can be cut behind any line end that is a token, and its tokens are
cut with it.  The part before the cut is read on its own as it is read with
the rest behind it: all its lexemes have stopped before the line end, and the
line end itself needs nothing behind it.  The part behind the cut is read as
if it stood alone, only further on, but for the one thing that the reader
carries over: whether a `/` that comes next opens a regular expression.  The
token right before the cut is a line end, and that tells as little as none.

## Results

* `Reader.Agrees.tokens_shift`   — readers that agree, and the same text further on.
* `Reader.tokens_append_newline` — reading behind a line end.
* `exists_tokenize_append`       — the tokens of a script that goes on.
* `lexing_is_local`              — what that means for two scripts.
-/

namespace FenceFacts

/-- The same token, `n` bytes further on. -/
def Token.shift (n : Nat) (t : Token) : Token := { t with span := t.span.shift n }

namespace Reader

variable {r r' : Reader} {rest : Text} {t : Token}

-- ---------------------------------------------------------------------------
-- One token after the other
-- ---------------------------------------------------------------------------

/-- The token that is read at byte `offset`. -/
def nextToken (r : Reader) (offset : Nat) (c : Char) (cs : Text) : Token :=
  let lexeme := nextLexeme r.regexAllowed c cs
  ⟨lexeme.kind, lexeme.text, offset, offset + lexeme.text.byteLength⟩

theorem tokens_eq_cons (r : Reader) (offset : Nat) (c : Char) (cs : Text) :
    r.tokens offset (c :: cs) = r.nextToken offset c cs ::
      (r.step (r.nextToken offset c cs)).tokens (r.nextToken offset c cs).span.stop
        (nextLexeme r.regexAllowed c cs).rest := by
  rw [tokens, tokenizeFrom]
  rfl

/-- Lexeme by lexeme: a text is empty, or something is left of it by the lexeme
at its front, whatever a slash means there. -/
@[elab_as_elim]
theorem lexeme_induction {motive : Text → Prop} (nil : motive [])
    (cons : ∀ c cs, (∀ regexAllowed, motive (nextLexeme regexAllowed c cs).rest) →
      motive (c :: cs)) (rest : Text) : motive rest :=
  match rest with
  | [] => nil
  | c :: cs => cons c cs fun regexAllowed =>
      lexeme_induction nil cons (nextLexeme regexAllowed c cs).rest
termination_by rest.length
decreasing_by exact nextLexeme_rest_length_lt _ _ _

-- ---------------------------------------------------------------------------
-- Further on
-- ---------------------------------------------------------------------------

/-- Readers that go on in the same way: a slash means the same to both, and
behind every token that may come next as well. -/
structure Agrees (r r' : Reader) : Prop where
  regexAllowed : r'.regexAllowed = r.regexAllowed
  previous : ∀ kind text,
    opensRegexAfter kind text r'.previous = opensRegexAfter kind text r.previous

theorem opensRegexAfter_shift (n : Nat) (kind : TokenKind) (text : Text) (previous : Option Token) :
    opensRegexAfter kind text (previous.map (Token.shift n)) =
      opensRegexAfter kind text previous := by
  cases previous <;> rfl

theorem Agrees.step (h : Agrees r r') (n : Nat) (t : Token) :
    Agrees (r.step t) (r'.step (t.shift n)) where
  regexAllowed := by
    show (if t.isSignificant then opensRegexAfter t.kind t.text r'.previous
      else r'.regexAllowed) = _
    rw [h.previous, h.regexAllowed]
    rfl
  previous kind text := opensRegexAfter_shift n kind text (some t)

/-- Readers that agree read **the same tokens**, also further on. -/
theorem Agrees.tokens_shift (h : Agrees r r') (offset n : Nat) (rest : Text) :
    r'.tokens (offset + n) rest = (r.tokens offset rest).map (Token.shift n) := by
  induction rest using lexeme_induction generalizing r r' offset with
  | nil => rw [tokens_nil, tokens_nil, List.map_nil]
  | cons c cs ih =>
    have hnext : r'.nextToken (offset + n) c cs = (r.nextToken offset c cs).shift n := by
      simp only [nextToken, Token.shift, Span.shift, h.regexAllowed, Nat.add_right_comm]
    rw [tokens_eq_cons, tokens_eq_cons, hnext, List.map_cons, h.regexAllowed]
    congr 1
    exact ih r.regexAllowed (h.step n _) _

/-- A line end before the first token tells as little as nothing. -/
theorem agrees_of_newline (regexAllowed : Bool) (ht : t.kind = .newline) :
    Agrees ⟨regexAllowed, none⟩ ⟨regexAllowed, some t⟩ where
  regexAllowed := rfl
  previous kind text := by
    have hnot : (t.kind == .punct && t.text == text) = false := by
      rw [ht]
      rfl
    cases kind with
    | punct => simp only [opensRegexAfter, Option.any_some, hnot, Option.any_none]
    | closing b => cases b <;> rfl
    | _ => rfl

-- ---------------------------------------------------------------------------
-- Behind a line end
-- ---------------------------------------------------------------------------

theorem tokens_cons_append {c : Char} {cs more : Text}
    (h : nextLexeme r.regexAllowed c (cs ++ more) =
      (nextLexeme r.regexAllowed c cs).behind more) (offset : Nat) :
    r.tokens offset (c :: (cs ++ more)) = r.nextToken offset c cs ::
      (r.step (r.nextToken offset c cs)).tokens (r.nextToken offset c cs).span.stop
        ((nextLexeme r.regexAllowed c cs).rest ++ more) := by
  have hnext : r.nextToken offset c (cs ++ more) = r.nextToken offset c cs := by
    rw [nextToken, h]
    rfl
  rw [tokens_eq_cons, hnext, h]
  rfl

/-- A lone backslash is no line end. -/
theorem kind_ne_newline_of_backslash {offset : Nat}
    (ht : (r.tokens offset ['\\']).getLast? = some t) : t.kind ≠ .newline := by
  have hlexeme (regexAllowed : Bool) : nextLexeme regexAllowed '\\' [] =
      ⟨.unknown, ['\\'], []⟩ := by cases regexAllowed <;> rfl
  rw [tokens_eq_cons, hlexeme, tokens_nil] at ht
  obtain rfl := Option.some.inj ht
  show (nextLexeme r.regexAllowed '\\' []).kind ≠ .newline
  rw [hlexeme]
  decide

/-- Reading **goes on behind a line end**: what has been read stays as it is. -/
theorem tokens_append_newline {offset : Nat} (ht : (r.tokens offset rest).getLast? = some t)
    (hkind : t.kind = .newline) (more : Text) :
    r.tokens offset (rest ++ more) = r.tokens offset rest ++
      ((r.tokens offset rest).foldl step r).tokens (offset + rest.byteLength) more := by
  induction rest using lexeme_induction generalizing r offset with
  | nil =>
    rw [tokens_nil] at ht
    cases ht
  | cons c cs ih =>
    have hlength : offset + Text.byteLength (c :: cs) = (r.nextToken offset c cs).span.stop +
        (nextLexeme r.regexAllowed c cs).rest.byteLength := by
      rw [← nextLexeme_text_append_rest r.regexAllowed c cs, Text.byteLength_append,
        ← Nat.add_assoc]
      rfl
    rw [tokens_eq_cons] at ht ⊢
    rw [List.cons_append, List.foldl_cons, List.cons_append, hlength]
    by_cases hlast : (nextLexeme r.regexAllowed c cs).rest = []
    · -- nothing is left, so this token is the line end
      rw [hlast, tokens_nil] at ht
      obtain rfl := Option.some.inj ht
      rw [tokens_cons_append (nextLexeme_newline_behind hkind more), hlast, tokens_nil]
      rfl
    · -- the line end is read later, so what is left settles the lexeme
      have hlater : ((r.step (r.nextToken offset c cs)).tokens (r.nextToken offset c cs).span.stop
          (nextLexeme r.regexAllowed c cs).rest).getLast? = some t := by
        obtain ⟨d, ds, hrest⟩ := List.exists_cons_of_ne_nil hlast
        rw [hrest, tokens_eq_cons] at ht ⊢
        rwa [List.getLast?_cons_cons] at ht
      have hsettles : Settles (nextLexeme r.regexAllowed c cs).rest := by
        refine ⟨hlast, fun hrest => ?_⟩
        rw [hrest] at hlater
        exact kind_ne_newline_of_backslash hlater hkind
      rw [tokens_cons_append (nextLexeme_behind hsettles more), ih r.regexAllowed hlater]

end Reader

-- ---------------------------------------------------------------------------
-- Scripts
-- ---------------------------------------------------------------------------

variable {a : Text} {t : Token}

/-- Behind a line end a script goes on as **another script**, which starts with
what a slash means there. -/
theorem exists_tokenize_append (ht : (tokenize a).getLast? = some t) (hkind : t.kind = .newline)
    (b : Text) :
    ∃ regexAllowed, (regexAllowed = true ↔ AwaitOperand (tokenize a)) ∧
      tokenize (a ++ b) = tokenize a ++
        (tokenizeFrom 0 regexAllowed none b).map (Token.shift a.byteLength) := by
  have hread : (Reader.tokens {} 0 a).getLast? = some t := ht
  have happend := Reader.tokens_append_newline hread hkind b
  have hprevious : Reader.behind (tokenize a) =
      ⟨(Reader.behind (tokenize a)).regexAllowed, some t⟩ := by
    rw [← ht, ← Reader.previous_behind]
  have hagrees := Reader.agrees_of_newline (Reader.behind (tokenize a)).regexAllowed hkind
  rw [← hprevious] at hagrees
  refine ⟨(Reader.behind (tokenize a)).regexAllowed, regexAllowed_behind_iff (tokenize a), ?_⟩
  exact happend.trans (congrArg (tokenize a ++ ·) (hagrees.tokens_shift 0 a.byteLength b))

/-- Lexing is **local at line ends**.  When the last token of a script is a
line end, the script may go on, and its tokens stay the first ones.  If an
operand must come next or nothing significant has been read, the tokens of
what follows are those it has alone, further on. -/
theorem lexing_is_local (a b : Text) (t : Token) (hlast : (tokenize a).getLast? = some t)
    (hnewline : t.kind = .newline) :
    tokenize a <+: tokenize (a ++ b) ∧
    (AwaitOperand (tokenize a) →
      tokenize (a ++ b) = tokenize a ++ (tokenize b).map (Token.shift a.byteLength)) := by
  obtain ⟨regexAllowed, hoperand, happend⟩ := exists_tokenize_append hlast hnewline b
  refine ⟨⟨_, happend.symm⟩, fun hawaits => ?_⟩
  rw [happend, hoperand.mpr hawaits]
  rfl

/-- A sign at the end of a line, and the same sign before a slash on the next. -/
def signedLines : Text × Text := (['x', '+', '\n'], ['+', '/', 'é', '/', ';'])

/-- The two signs are no doubled one, so both lines can be read on their own. -/
theorem lexing_is_local_signedLines :
    (tokenize signedLines.1).getLast? = some ⟨.newline, ['\n'], 2, 3⟩ ∧
      AwaitOperand (tokenize signedLines.1) ∧
      (⟨.regex, ['/', 'é', '/'], 1, 5⟩ : Token) ∈ tokenize signedLines.2 ∧
      tokenize signedLines.1 <+: tokenize (signedLines.1 ++ signedLines.2) ∧
      tokenize (signedLines.1 ++ signedLines.2) =
        tokenize signedLines.1 ++ (tokenize signedLines.2).map (Token.shift 3) := by
  have hlast : (tokenize signedLines.1).getLast? = some ⟨.newline, ['\n'], 2, 3⟩ := by
    decide +kernel
  have hoperand : AwaitOperand (tokenize signedLines.1) :=
    (regexAllowed_behind_iff (tokenize signedLines.1)).mp (by decide +kernel)
  obtain ⟨hfirst, hwhole⟩ := lexing_is_local signedLines.1 signedLines.2 _ hlast rfl
  exact ⟨hlast, hoperand, by decide +kernel, hfirst, hwhole hoperand⟩

end FenceFacts
