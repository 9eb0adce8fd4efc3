import FenceFacts.Proofs.LineEnds.Text
import FenceFacts.Proofs.Respelling

/-!
# FenceFacts — lexing with two kinds of line ends

Written with carriage returns, a script has the same tokens.  No lexeme begins
or ends between a carriage return and its line feed: a line end is one lexeme,
whichever way it is written; runs and literals that stay on their line end
before it; and comments and templates that go on behind it take both of its
characters, also when a backslash stands before it.

## Results

* `Lexeme.scan_crlf`        — a lexeme that no line end begins.
* `exists_nextLexeme_crlf`  — the lexeme at the front, whichever it is.
* `tokenize_crlf`           — a script's tokens.
-/

namespace FenceFacts

open Text

-- ---------------------------------------------------------------------------
-- Tails
-- ---------------------------------------------------------------------------

namespace Tail

def crlf (t : Tail) : Tail := ⟨t.closed, t.text.crlf, t.rest.crlf⟩

theorem crlf_cons_of_ne {c : Char} (hc : c ≠ '\n') (t : Tail) :
    (t.cons c).crlf = t.crlf.cons c := by
  simp only [crlf, cons, Text.crlf_cons_of_ne hc]

theorem crlf_cons_newline (t : Tail) : (t.cons '\n').crlf = (t.crlf.cons '\n').cons '\r' := rfl

theorem crlf_stop (rest : Text) : (stop rest).crlf = stop rest.crlf := rfl

end Tail

theorem blockCommentTail_crlf (t : Text) :
    blockCommentTail t.crlf = (blockCommentTail t).crlf := by
  fun_induction blockCommentTail t with
  | case1 => rfl
  | case2 rest => rfl
  | case3 c rest hclose ih =>
    by_cases hc : c = '\n'
    · subst hc
      rw [crlf_newline_cons, Tail.crlf_cons_newline, ← ih]
      rfl
    · rw [crlf_cons_of_ne hc, Tail.crlf_cons_of_ne hc, ← ih, blockCommentTail]
      intro r hstar hslash
      obtain ⟨r', hr', -⟩ := exists_of_crlf_eq_cons hslash (by decide)
      exact hclose r' hstar hr'

/-- A backslash that has nothing to take along has nothing to take along in
the other script. -/
theorem no_escape_crlf {c : Char} {rest : Text} (h : ∀ x r, c = '\\' → rest = x :: r → False) :
    ∀ x r, c = '\\' → rest.crlf = x :: r → False := by
  intro x r hc hr
  cases rest with
  | nil => cases hr
  | cons y ys => exact h y ys hc rfl

theorem templateTail_crlf (t : Text) : templateTail t.crlf = (templateTail t).crlf := by
  fun_induction templateTail t with
  | case1 => rfl
  | case2 c rest ih =>
    rw [crlf_cons_of_ne (by decide), Tail.crlf_cons_of_ne (by decide)]
    by_cases hc : c = '\n'
    · -- the backslash takes the carriage return, and the line feed is as any character
      subst hc
      rw [crlf_newline_cons, Tail.crlf_cons_newline, ← ih]
      rfl
    · rw [crlf_cons_of_ne hc, Tail.crlf_cons_of_ne hc, ← ih, templateTail]
  | case3 rest => rfl
  | case4 rest hescape hquote =>
    rw [crlf_cons_of_ne (by decide), templateTail.eq_3 _ _ (no_escape_crlf hescape),
      if_neg (by decide), if_pos rfl, Tail.crlf_stop, crlf_cons_of_ne (by decide)]
  | case5 c rest hescape hquote hslash ih =>
    by_cases hc : c = '\n'
    · subst hc
      rw [crlf_newline_cons, Tail.crlf_cons_newline, ← ih]
      rfl
    · rw [crlf_cons_of_ne hc, Tail.crlf_cons_of_ne hc, ← ih,
        templateTail.eq_3 _ _ (no_escape_crlf hescape), if_neg hquote, if_neg hslash]

theorem stringTail_crlf {quote : Char} (hquote : isLineBreak quote = false) (t : Text) :
    stringTail quote t.crlf = (stringTail quote t).crlf := by
  have hnequote : '\r' ≠ quote := by
    rintro rfl
    cases hquote
  fun_induction stringTail quote t with
  | case1 => rfl
  | case2 c rest hbreak =>
    obtain ⟨r, hr⟩ := exists_crlf_cons_of_isLineBreak hbreak rest
    rw [Tail.crlf_stop, crlf_cons_of_ne (by decide), hr, stringTail, if_pos (by decide)]
  | case3 c rest hbreak ih =>
    have hc := ne_newline_of_isLineBreak hbreak
    rw [crlf_cons_of_ne (by decide), crlf_cons_of_ne hc, stringTail, if_neg hbreak, ih,
      Tail.crlf_cons_of_ne (by decide), Tail.crlf_cons_of_ne hc]
  | case4 rest hescape =>
    have hc : quote ≠ '\n' := ne_newline_of_isLineBreak (by simp [hquote])
    rw [crlf_cons_of_ne hc, stringTail.eq_3 _ _ _ (no_escape_crlf hescape), if_pos rfl, Tail.crlf,
      crlf_cons_of_ne hc, crlf_nil]
  | case5 c rest hescape hquote' hstop =>
    rw [Tail.crlf_stop]
    by_cases hbreak : isLineBreak c = true
    · obtain ⟨r, hr⟩ := exists_crlf_cons_of_isLineBreak hbreak rest
      rw [hr, stringTail.eq_3 _ _ _ (fun _ _ h => by cases h), if_neg hnequote,
        if_pos (by decide)]
    · rw [crlf_cons_of_ne (ne_newline_of_isLineBreak hbreak),
        stringTail.eq_3 _ _ _ (no_escape_crlf hescape), if_neg hquote', if_pos hstop]
  | case6 c rest hescape hquote' hgo ih =>
    have hbreak : ¬ isLineBreak c = true := fun h => hgo (by simp [h])
    have hc := ne_newline_of_isLineBreak hbreak
    rw [crlf_cons_of_ne hc, stringTail.eq_3 _ _ _ (no_escape_crlf hescape), if_neg hquote',
      if_neg hgo, ih, Tail.crlf_cons_of_ne hc]

theorem regexTail_crlf (inClass escaped : Bool) (t : Text) :
    regexTail inClass escaped t.crlf = (regexTail inClass escaped t).crlf := by
  induction t generalizing inClass escaped with
  | nil => rfl
  | cons c rest ih =>
    by_cases hbreak : isLineBreak c = true
    · obtain ⟨r, hr⟩ := exists_crlf_cons_of_isLineBreak hbreak rest
      rw [hr, regexTail, if_pos (by decide), regexTail, if_pos hbreak, Tail.crlf_stop, hr]
    · have hc := ne_newline_of_isLineBreak hbreak
      obtain ⟨htake, hrun, hdrop⟩ := takeWhile_crlf (p := isFlag) (by decide) (by decide) rest
      have hflags : (⟨true, c :: rest.takeWhile isFlag, crlf (rest.dropWhile isFlag)⟩ : Tail) =
          (⟨true, c :: rest.takeWhile isFlag, rest.dropWhile isFlag⟩ : Tail).crlf := by
        rw [Tail.crlf, crlf_cons_of_ne hc, hrun]
      -- the state goes on in the same way on both sides
      rw [crlf_cons_of_ne hc, regexTail, regexTail]
      simp only [if_neg hbreak, ih, htake, hdrop, hflags, apply_ite Tail.crlf,
        Tail.crlf_cons_of_ne hc]

-- ---------------------------------------------------------------------------
-- Lexemes
-- ---------------------------------------------------------------------------

namespace Lexeme

def crlf (l : Lexeme) : Lexeme := ⟨l.kind, l.text.crlf, l.rest.crlf⟩

theorem single_crlf {c : Char} (hc : c ≠ '\n') (kind : TokenKind) (rest : Text) :
    single kind c rest.crlf = (single kind c rest).crlf := by
  rw [single, single, crlf, crlf_cons_of_ne hc, crlf_nil]

/-- A character with a run behind it that line ends end. -/
theorem run_crlf {c : Char} (hc : c ≠ '\n') {p : Char → Bool} (hcr : p '\r' = false)
    (hlf : p '\n' = false) (kind : TokenKind) (rest : Text) :
    run kind p c rest.crlf = (run kind p c rest).crlf := by
  obtain ⟨htake, hrun, hdrop⟩ := takeWhile_crlf hcr hlf rest
  rw [run, run, crlf, htake, hdrop, crlf_cons_of_ne hc, hrun]

theorem delimited_crlf {delimiter : Text} (h : '\n' ∉ delimiter) (closed unterminated : TokenKind)
    (tail : Tail) :
    delimited closed unterminated delimiter tail.crlf =
      (delimited closed unterminated delimiter tail).crlf := by
  rw [delimited, delimited, crlf, crlf_append, crlf_of_not_mem h]
  rfl

theorem slash_crlf (rest : Text) : slash rest.crlf = (slash rest).crlf := by
  fun_cases slash rest with
  | case1 r =>
    obtain ⟨htake, hrun, hdrop⟩ :=
      takeWhile_crlf (p := (!isLineBreak ·)) (by decide) (by decide) r
    rw [crlf_cons_of_ne (by decide), slash, crlf, htake, hdrop, crlf_cons_of_ne (by decide),
      crlf_cons_of_ne (by decide), hrun]
  | case2 r =>
    rw [crlf_cons_of_ne (by decide), slash, blockCommentTail_crlf]
    exact delimited_crlf (by decide) _ _ _
  | case3 _ hline hblock =>
    rw [slash]
    · exact single_crlf (by decide) _ _
    · intro r hr
      obtain ⟨r', hr', -⟩ := exists_of_crlf_eq_cons hr (by decide)
      exact hline r' hr'
    · intro r hr
      obtain ⟨r', hr', -⟩ := exists_of_crlf_eq_cons hr (by decide)
      exact hblock r' hr'

theorem point_crlf (rest : Text) : point rest.crlf = (point rest).crlf := by
  cases rest with
  | nil => rfl
  | cons c cs =>
    by_cases hc : c = '\n'
    · subst hc
      rfl
    · obtain ⟨htake, hrun, hdrop⟩ :=
        takeWhile_crlf (p := isNumberPart) (by decide) (by decide) cs
      rw [crlf_cons_of_ne hc, point, point]
      split
      · rw [crlf, htake, hdrop, crlf_cons_of_ne (by decide), crlf_cons_of_ne hc, hrun]
      · rw [← crlf_cons_of_ne hc]
        exact single_crlf (by decide) _ _

theorem number_crlf {c : Char} (hc : c ≠ '\n') (rest : Text) :
    number c rest.crlf = (number c rest).crlf := by
  obtain ⟨htake, hrun, hdrop⟩ := takeWhile_crlf (p := isNumberPart) (by decide) (by decide) rest
  unfold number
  rw [htake, hdrop]
  split
  · next fraction hr =>
    obtain ⟨fraction', hr', rfl⟩ := exists_of_crlf_eq_cons hr (by decide)
    obtain ⟨htake', hrun', hdrop'⟩ :=
      takeWhile_crlf (p := isNumberPart) (by decide) (by decide) fraction'
    rw [hr']
    show _ = crlf ⟨.number, _ ++ '.' :: fraction'.takeWhile isNumberPart, _⟩
    rw [htake', hdrop', crlf, crlf_append, crlf_cons_of_ne hc, hrun,
      crlf_cons_of_ne (by decide), hrun']
  · next hpoint =>
    split
    · next fraction hr =>
      rw [hr] at hpoint
      exact absurd (crlf_cons_of_ne (by decide) _) (hpoint _)
    · rw [crlf, crlf_cons_of_ne hc, hrun]

/-- A lexeme that no line end begins. -/
theorem scan_crlf {c : Char} (hbreak : ¬ isLineBreak c = true) (rest : Text) :
    scan c rest.crlf = (scan c rest).crlf := by
  have hc := ne_newline_of_isLineBreak hbreak
  have hcr : c ≠ '\r' := by
    rintro rfl
    exact hbreak rfl
  have hdelimiter : '\n' ∉ [c] := fun h => hc (List.mem_singleton.mp h).symm
  unfold scan
  rw [if_neg hc, if_neg hcr, if_neg hc, if_neg hcr]
  split
  · exact run_crlf hc (by decide) (by decide) _ rest
  split
  · exact slash_crlf rest
  split
  · next hquote =>
    have hquote : isLineBreak c = false := by simpa using hbreak
    rw [stringTail_crlf hquote]
    exact delimited_crlf hdelimiter _ _ _
  split
  · rw [templateTail_crlf]
    exact delimited_crlf hdelimiter _ _ _
  split
  · exact number_crlf hc rest
  split
  · exact point_crlf rest
  split
  · exact run_crlf hc (by decide) (by decide) _ rest
  · split <;> exact single_crlf hc _ rest

end Lexeme

/-- The lexeme at the front, a line end or another one. -/
theorem exists_nextLexeme_crlf {c : Char} (hcr : c ≠ '\r') (rest : Text) :
    ∃ c' rest', Text.crlf (c :: rest) = c' :: rest' ∧ ∀ regexAllowed,
      nextLexeme regexAllowed c' rest' = (nextLexeme regexAllowed c rest).crlf := by
  by_cases hc : c = '\n'
  · subst hc
    refine ⟨'\r', '\n' :: rest.crlf, rfl, fun regexAllowed => ?_⟩
    cases regexAllowed <;> rfl
  · have hbreak : ¬ isLineBreak c = true := by
      rw [isLineBreak_iff, not_or]
      exact ⟨hcr, hc⟩
    refine ⟨c, rest.crlf, crlf_cons_of_ne hc rest, fun regexAllowed => ?_⟩
    have hkind : (Lexeme.scan c rest).crlf.kind = (Lexeme.scan c rest).kind := rfl
    have htext : (Lexeme.scan c rest).crlf.text = ['/'] ↔ (Lexeme.scan c rest).text = ['/'] :=
      crlf_eq_iff (by decide)
    have hregex : Lexeme.delimited .regex .unterminatedRegex ['/']
        (regexTail false false (Lexeme.scan c rest).crlf.rest) =
        (Lexeme.delimited .regex .unterminatedRegex ['/']
          (regexTail false false (Lexeme.scan c rest).rest)).crlf := by
      rw [← Lexeme.delimited_crlf (by decide), ← regexTail_crlf]
      rfl
    simp only [nextLexeme, Lexeme.scan_crlf hbreak, hkind, htext, hregex, Bool.and_eq_true,
      beq_iff_eq, apply_ite Lexeme.crlf]

-- ---------------------------------------------------------------------------
-- Tokens
-- ---------------------------------------------------------------------------

/-- The script with carriage returns: another spelling of the same tokens. -/
def Respelling.crlf (script : Text) : Respelling where
  text := Text.crlf
  offset := script.crlfOffset
  text_eq_iff := crlf_eq_iff

theorem token_crlf_append (before : Text) (kind : TokenKind) (piece after : Text) :
    (Respelling.crlf (before ++ (piece ++ after))).token
        ⟨kind, piece, ⟨before.byteLength, before.byteLength + piece.byteLength⟩⟩ =
      ⟨kind, piece.crlf,
        ⟨before.crlf.byteLength, before.crlf.byteLength + piece.crlf.byteLength⟩⟩ := by
  have hstart := crlfOffset_append before (piece ++ after)
  have hstop := crlfOffset_append (before ++ piece) after
  rw [List.append_assoc, byteLength_append, crlf_append, byteLength_append] at hstop
  simp only [Respelling.token, Respelling.span, Respelling.crlf, hstart, hstop]

/-- The tokens of a piece of a script. -/
theorem tokenizeFrom_crlf {offset : Nat} {regexAllowed : Bool} {previous : Option Token}
    {rest : Text} : '\r' ∉ rest →
    ∀ before : Text, offset = before.byteLength →
      tokenizeFrom before.crlf.byteLength regexAllowed
          (previous.map (Respelling.crlf (before ++ rest)).token) rest.crlf =
        (tokenizeFrom offset regexAllowed previous rest).map
          (Respelling.crlf (before ++ rest)).token := by
  fun_induction tokenizeFrom offset regexAllowed previous rest with
  | case1 =>
    intro hcr before hoffset
    rw [crlf_nil, tokenizeFrom]
    rfl
  | case2 offset regexAllowed previous c cs lexeme token regexAllowed' ih =>
    rintro hcr before rfl
    have hsplit : c :: cs = lexeme.text ++ lexeme.rest :=
      (nextLexeme_text_append_rest regexAllowed c cs).symm
    have hrest : '\r' ∉ lexeme.rest := fun h => hcr (hsplit ▸ List.mem_append_right _ h)
    have hc : c ≠ '\r' := fun h => hcr (h ▸ List.mem_cons_self)
    obtain ⟨c', rest', hcons, hlexeme⟩ := exists_nextLexeme_crlf hc cs
    have hlexeme : nextLexeme regexAllowed c' rest' = lexeme.crlf := hlexeme regexAllowed
    have htoken : (⟨lexeme.kind, lexeme.text.crlf, ⟨before.crlf.byteLength,
        before.crlf.byteLength + lexeme.text.crlf.byteLength⟩⟩ : Token) =
        (Respelling.crlf (before ++ c :: cs)).token token := by
      rw [hsplit]
      exact (token_crlf_append before lexeme.kind lexeme.text lexeme.rest).symm
    -- the state behind the token is the same, and the text before it is longer by the token
    have hlater := ih hrest (before ++ lexeme.text) (by rw [byteLength_append])
    rw [List.append_assoc, ← hsplit, crlf_append, byteLength_append] at hlater
    have hregex : opensRegexAfter lexeme.kind lexeme.text.crlf
        (previous.map (Respelling.crlf (before ++ c :: cs)).token) =
        opensRegexAfter lexeme.kind lexeme.text previous :=
      (Respelling.crlf _).opensRegexAfter_respelled _ _ _
    rw [hcons, tokenizeFrom, hlexeme, List.map_cons]
    show (⟨lexeme.kind, lexeme.text.crlf,
        ⟨before.crlf.byteLength, before.crlf.byteLength + lexeme.text.crlf.byteLength⟩⟩ : Token) ::
      tokenizeFrom (before.crlf.byteLength + lexeme.text.crlf.byteLength)
        (if lexeme.kind.isSignificant then
          opensRegexAfter lexeme.kind lexeme.text.crlf _ else regexAllowed)
        (some ⟨lexeme.kind, lexeme.text.crlf,
          ⟨before.crlf.byteLength, before.crlf.byteLength + lexeme.text.crlf.byteLength⟩⟩)
        lexeme.rest.crlf = _
    rw [hregex, htoken]
    exact congrArg _ hlater

/-- A script has **the same tokens**, with the carriage returns in them. -/
theorem tokenize_crlf {script : Text} (hcr : '\r' ∉ script) :
    tokenize script.crlf = (tokenize script).map (Respelling.crlf script).token := by
  show tokenizeFrom (crlf []).byteLength true
    (Option.map (Respelling.crlf script).token none) script.crlf = _
  exact tokenizeFrom_crlf hcr [] rfl

end FenceFacts
