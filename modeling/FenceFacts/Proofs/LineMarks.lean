import FenceFacts.Proofs.Acceptance
import FenceFacts.Proofs.Lexicon.Delimiters
import FenceFacts.Proofs.LineBreaks
import FenceFacts.Proofs.LineSpans

/-!
# FenceFacts — lines with code, lines with comments

A line counts as code when a token that is neither trivia nor comment has a
byte in common with it, and as a line of comments when a comment has.  What is
left are the lines that hold only trivia.  Such a line is blank, and no comment
or template goes on over it; conversely, what goes on over a blank line begins
before it and ends behind it, since no token but trivia begins or ends with a
blank or a line end, and in an accepted script only comments and templates go
on over lines.

## Results

* `exists_token_at` — every character belongs to a token.
* `within_of_spaces` — what comments and templates go on over they take in.
* `isVacant_iff`    — the lines that hold only trivia.
* `line_counts_are_exact` — the counts of an accepted script.
-/

namespace FenceFacts

open Text

variable {script p q : Text} {c : Char} {t : Token} {line : IndexedLine}

-- ---------------------------------------------------------------------------
-- Characters of pieces
-- ---------------------------------------------------------------------------

/-- A character that starts in a piece of a text belongs to the piece. -/
theorem Text.exists_of_append_eq {before piece after : Text}
    (h : before ++ (piece ++ after) = p ++ c :: q) (hstart : before.byteLength ≤ p.byteLength)
    (hstop : p.byteLength < before.byteLength + piece.byteLength) :
    ∃ w v, piece = w ++ c :: v ∧ p = before ++ w ∧ q = v ++ after := by
  obtain ⟨w, rfl, hw⟩ := exists_append_of_byteLength_le h hstart
  rw [byteLength_append, Nat.add_lt_add_iff_left] at hstop
  obtain ⟨v, rfl, hv⟩ := exists_append_of_byteLength_le hw.symm (Nat.le_of_lt hstop)
  cases v with
  | nil =>
    rw [List.append_nil] at hstop
    exact absurd hstop (Nat.lt_irrefl _)
  | cons x v =>
    obtain ⟨rfl, rfl⟩ := List.cons.inj hv
    exact ⟨w, v, rfl, rfl, rfl⟩

theorem Text.mem_of_append_eq {before piece after : Text}
    (h : before ++ (piece ++ after) = p ++ c :: q) (hstart : before.byteLength ≤ p.byteLength)
    (hstop : p.byteLength < before.byteLength + piece.byteLength) : c ∈ piece := by
  obtain ⟨w, v, rfl, -⟩ := Text.exists_of_append_eq h hstart hstop
  exact List.mem_append_right w List.mem_cons_self

theorem Token.LiesIn.exists_of_mem_span (h : t.LiesIn script) (hscript : script = p ++ c :: q)
    (hmem : p.byteLength ∈ t.span) :
    ∃ w v after, t.text = w ++ c :: v ∧ q = v ++ after := by
  obtain ⟨-, before, after, hsplit, hspan⟩ := h
  rw [hspan] at hmem
  obtain ⟨w, v, htext, -, hq⟩ :=
    Text.exists_of_append_eq (hsplit.symm.trans hscript) hmem.1 hmem.2
  exact ⟨w, v, after, htext, hq⟩

/-- Every character **belongs to a token**. -/
theorem exists_token_at (hscript : script = p ++ c :: q) :
    ∃ t ∈ tokenize script, p.byteLength ∈ t.span ∧
      ∃ w v after, t.text = w ++ c :: v ∧ q = v ++ after := by
  have htiles := tiles_tokenizeFrom 0 true none script
  have hlt : p.byteLength < 0 + script.byteLength := by
    have := c.utf8Size_pos
    rw [hscript, byteLength_append, byteLength_cons]
    omega
  obtain ⟨s, hs, hmem⟩ := htiles.exists_mem (Nat.zero_le _) hlt
  obtain ⟨t, ht, rfl⟩ := List.mem_map.mp hs
  exact ⟨t, ht, hmem, (liesIn_of_mem_tokenize ht).exists_of_mem_span hscript hmem⟩

-- ---------------------------------------------------------------------------
-- Where tokens begin and end
-- ---------------------------------------------------------------------------

theorem TokenKind.isTrivia_iff {k : TokenKind} :
    k.isTrivia = true ↔ k = .whitespace ∨ k = .newline := by
  cases k <;> simp [isTrivia]

/-- A character of trivia is blank, a line feed, or a carriage return with a
line feed behind it. -/
theorem mem_text_of_isTrivia {w v : Text} (ht : t ∈ tokenize script)
    (htrivia : t.kind.isTrivia = true) (htext : t.text = w ++ c :: v) :
    isHorizontalSpace c = true ∨ c = '\n' ∨ c = '\r' ∧ v = ['\n'] := by
  obtain ⟨-, regexAllowed, x, cs, -, hkind, hlexeme, -⟩ := exists_nextLexeme_of_mem ht
  obtain ⟨d, r, hcons⟩ := List.exists_cons_of_ne_nil (liesIn_of_mem_tokenize ht).1
  rw [TokenKind.isTrivia_iff, hkind] at htrivia
  have hmem : (nextLexeme regexAllowed x cs).text ∈
      Lexicon.textsOf (nextLexeme regexAllowed x cs).kind := by
    refine nextLexeme_mem_textsOf ?_
    rcases htrivia with h | h <;> rw [h] <;> decide
  rw [← hlexeme, hcons] at hmem
  rw [hcons] at htext
  have hc : c ∈ d :: r := htext ▸ List.mem_append_right w List.mem_cons_self
  rcases htrivia with h | h
  all_goals
    rw [h, Lexicon.mem_textsOf] at hmem
    simp [Lexicon.rules] at hmem
  · have hblank : ∀ x ∈ d :: r, isHorizontalSpace x = true := List.forall_mem_cons.mpr hmem
    exact Or.inl (hblank c hc)
  · rcases hmem with ⟨rfl, rfl⟩ | ⟨rfl, rfl⟩
    · rcases List.cons_eq_append_iff.mp htext with ⟨-, hfront⟩ | ⟨w', -, hw⟩
      · obtain ⟨rfl, rfl⟩ := List.cons.inj hfront
        exact Or.inr (Or.inr ⟨rfl, rfl⟩)
      · have hlast : c ∈ ['\n'] := hw ▸ List.mem_append_right w' List.mem_cons_self
        exact Or.inr (Or.inl (List.mem_singleton.mp hlast))
    · exact Or.inr (Or.inl (List.mem_singleton.mp hc))

/-- A space, tab or form feed, or a part of a line end. -/
def isSpace (c : Char) : Bool := isHorizontalSpace c || isLineBreak c

/-- What begins with one is trivia, or a carriage return alone. -/
theorem kind_nextLexeme_of_isSpace (hc : isSpace c = true) (regexAllowed : Bool) (cs : Text) :
    (nextLexeme regexAllowed c cs).kind.isTrivia = true ∨
      (nextLexeme regexAllowed c cs).kind = .unknown := by
  have hscan : (Lexeme.scan c cs).kind ∈ [.whitespace, .newline, .unknown] := by
    rw [isSpace, Bool.or_eq_true, Text.isLineBreak_iff] at hc
    rcases hc with hblank | rfl | rfl
    · rw [Lexeme.scan, if_pos hblank]
      exact List.mem_cons_self
    · show (Lexeme.carriageReturn cs).kind ∈ _
      unfold Lexeme.carriageReturn
      split <;> simp [Lexeme.single]
    · show TokenKind.newline ∈ _
      decide
  rw [nextLexeme_of_ne_punct]
  · simpa [TokenKind.isTrivia_iff, or_assoc] using hscan
  · intro hpunct
    rw [hpunct] at hscan
    exact absurd hscan (by decide)

/-- Only trivia **begin** with a blank or with a part of a line end. -/
theorem not_isSpace_of_text_eq_cons (ht : t ∈ tokenize script) (htrivia : ¬ t.kind.isTrivia = true)
    (hunknown : t.kind ≠ .unknown) (htext : t.text = c :: p) : ¬ isSpace c = true := by
  obtain ⟨-, regexAllowed, x, cs, -, hkind, hlexeme, -⟩ := exists_nextLexeme_of_mem ht
  obtain rfl : x = c := by
    have hsplit := nextLexeme_text_append_rest regexAllowed x cs
    rw [← hlexeme, htext] at hsplit
    exact (List.cons.inj hsplit).1.symm
  intro hspace
  rw [hkind] at htrivia hunknown
  exact (kind_nextLexeme_of_isSpace hspace regexAllowed cs).elim htrivia hunknown

/-- Comments and templates stand between delimiters. -/
theorem Delimiters.exists_of_kind (hkind : t.kind = .blockComment ∨ t.kind = .template) :
    ∃ d ∈ Delimiters.all, t.kind = d.closed := by
  rcases hkind with hk | hk
  · exact ⟨.comment, by simp [Delimiters.all], hk⟩
  · exact ⟨.template, by simp [Delimiters.all], hk⟩

/-- What a closed comment, string or template consists of. -/
theorem Delimiters.exists_inside {d : Delimiters} (hd : d ∈ Delimiters.all)
    (ht : t ∈ tokenize script) (hkind : t.kind = d.closed) :
    ∃ d' ∈ Delimiters.all, d'.closed = d.closed ∧
      ∃ inside, t.text = d'.opening ++ (inside ++ d'.closing) := by
  obtain ⟨-, regexAllowed, x, cs, -, hlexeme, htext, -⟩ := exists_nextLexeme_of_mem ht
  rw [hlexeme] at hkind
  obtain ⟨d', hd', hsame, hopening⟩ := exists_opening_of_mem_textsOf hd (Or.inl hkind)
    (nextLexeme_mem_textsOf (delimited_not_mem d hd _ (Or.inl hkind)))
  obtain ⟨r, hr⟩ := hopening.trans ⟨_, nextLexeme_text_append_rest regexAllowed x cs⟩
  obtain ⟨tail, hreads, heq⟩ := exists_reads_of_opening hd' regexAllowed hr
  refine ⟨d', hd', hsame, ?_⟩
  rw [htext, heq]
  cases hreads with
  | closed inside rest => exact ⟨inside, rfl⟩
  | unterminated inside rest =>
    rw [heq] at hkind
    have hkinds : ∀ d ∈ Delimiters.all, ∀ d' ∈ Delimiters.all, d'.unterminated ≠ d.closed := by
      decide
    exact absurd hkind (hkinds d hd d' hd')

/-- No closed comment, string or template **ends** with a blank or with a part
of a line end. -/
theorem Delimiters.exists_last {d : Delimiters} (hd : d ∈ Delimiters.all)
    (ht : t ∈ tokenize script) (hkind : t.kind = d.closed) :
    ∃ w c, t.text = w ++ [c] ∧ c.utf8Size = 1 ∧ ¬ isSpace c = true := by
  have hclosing : ∀ d ∈ Delimiters.all, ∃ init c, d.closing = init ++ [c] ∧ c.utf8Size = 1 ∧
      ¬ isSpace c = true := by
    simp only [Delimiters.all, List.forall_mem_cons]
    exact ⟨⟨['*'], '/', rfl, rfl, by decide⟩, ⟨[], '"', rfl, rfl, by decide⟩,
      ⟨[], '\'', rfl, rfl, by decide⟩, ⟨[], '\x60', rfl, rfl, by decide⟩,
      List.forall_mem_nil _⟩
  obtain ⟨d', hd', -, inside, htext⟩ := exists_inside hd ht hkind
  obtain ⟨init, c, hlast, hsize, hc⟩ := hclosing d' hd'
  refine ⟨d'.opening ++ (inside ++ init), c, ?_, hsize, hc⟩
  rw [htext, hlast]
  simp only [List.append_assoc]

/-- What begins before the end of a line and ends behind it holds a line feed. -/
theorem Token.LiesIn.newline_mem {before after : Text} (h : t.LiesIn script)
    (hscript : script = before ++ after) (hclosed : before.IsClosed)
    (hstart : t.span.start < before.byteLength) (hstop : before.byteLength ≤ t.span.stop) :
    '\n' ∈ t.text := by
  have hne : before ≠ [] := by
    rintro rfl
    exact Nat.not_lt_zero _ hstart
  obtain ⟨init, rfl⟩ := isTerminated_iff.mp (hclosed.resolve_left hne)
  have hfeed : Text.byteLength ['\n'] = 1 := rfl
  rw [byteLength_append, hfeed] at hstart hstop
  rw [List.append_assoc, List.singleton_append] at hscript
  obtain ⟨w, v, -, htext, -⟩ :=
    h.exists_of_mem_span hscript ⟨Nat.le_of_lt_succ hstart, hstop⟩
  rw [htext]
  exact List.mem_append_right w List.mem_cons_self

/-- Apart from line ends, what may stand in a script and goes on over lines are
comments and templates. -/
theorem TokenKind.eq_of_spansLines {ecmaVersion : Nat} (h : t.kind.spansLines = true)
    (hoffends : ¬ t.Offends ecmaVersion) (htrivia : ¬ t.kind.isTrivia = true) :
    t.kind = .blockComment ∨ t.kind = .template := by
  unfold TokenKind.spansLines at h
  split at h
  · next hk => exact absurd (TokenKind.isTrivia_iff.mpr (Or.inr hk)) htrivia
  · next hk => exact Or.inl hk
  · next hk => exact absurd (Or.inl (by simp [hk])) hoffends
  · next hk => exact Or.inr hk
  · next hk => exact absurd (Or.inl (by simp [hk])) hoffends
  · cases h

-- ---------------------------------------------------------------------------
-- Lines that hold only trivia
-- ---------------------------------------------------------------------------

/-- The line is blank up to its terminator, and no comment or template goes on
over it. -/
structure IndexedLine.IsVacant (tokens : List Token) (line : IndexedLine) : Prop where
  blank : ∀ c ∈ line.text, isHorizontalSpace c = true
  outside : ∀ t ∈ tokens, t.kind.isComment = true ∨ t.kind = .template →
    ¬ line.span.Within t.span

instance (tokens : List Token) : DecidablePred (IndexedLine.IsVacant tokens) := fun line =>
  decidable_of_iff (line.text.all isHorizontalSpace = true ∧
    ∀ t ∈ tokens, t.kind.isComment = true ∨ t.kind = .template → ¬ line.span.Within t.span)
    ⟨fun h => ⟨List.all_eq_true.mp h.1, h.2⟩, fun h => ⟨List.all_eq_true.mpr h.blank, h.outside⟩⟩

/-- A line end that a line feed follows belongs to the terminator. -/
theorem not_isLineBreak_of_newline_behind {x y rest later : Text} (htext : line.text = x ++ c :: y)
    (hnewline : '\n' ∉ line.text) (hlater : y ++ rest = '\n' :: later) :
    ¬ isLineBreak c = true := by
  cases y with
  | nil => exact not_isLineBreak_of_withoutTerminator htext
  | cons d y =>
    obtain ⟨rfl, -⟩ := List.cons.inj hlater
    rw [htext] at hnewline
    exact absurd (List.mem_append_right x (List.mem_cons_of_mem c List.mem_cons_self)) hnewline

/-- A line that holds only trivia is **blank**. -/
theorem blank_of_forall_isTrivia (hline : line ∈ (LineIndex.ofText script).countedLines)
    (h : ∀ t ∈ tokenize script, line.span.Meets t.span → t.kind.isTrivia = true) :
    ∀ c ∈ line.text, isHorizontalSpace c = true := by
  intro c hc
  have hscript : script ≠ [] := by
    rintro rfl
    rw [LineIndex.countedLines_ofText_nil, List.mem_singleton] at hline
    subst hline
    exact List.not_mem_nil hc
  obtain ⟨before, after, hsplit, -, hstart, hnewline⟩ :=
    LineIndex.exists_append_of_mem_countedLines hscript hline
  obtain ⟨x, y, hxy⟩ := List.append_of_mem hc
  have hraw : line.raw = x ++ c :: (y ++ line.terminator) := by
    rw [← withoutTerminator_append_terminator line.raw]
    show line.text ++ line.terminator = _
    rw [hxy, List.append_assoc, List.cons_append]
  have hplace : script = (before ++ x) ++ c :: (y ++ (line.terminator ++ after)) := by
    rw [hsplit, hraw]
    simp only [List.append_assoc, List.cons_append]
  have hmem : Text.byteLength (before ++ x) ∈ line.span := by
    have hsize := c.utf8Size_pos
    rw [Span.mem_iff, IndexedLine.span, hstart, hraw]
    simp only [byteLength_append, byteLength_cons]
    omega
  obtain ⟨t, ht, hmem', w, v, later, htext, hlater⟩ := exists_token_at hplace
  rcases mem_text_of_isTrivia ht (h t ht ⟨_, hmem, hmem'⟩) htext with hblank | rfl | ⟨rfl, rfl⟩
  · exact hblank
  · exact absurd hc hnewline
  · exact absurd rfl (not_isLineBreak_of_newline_behind hxy hnewline hlater)

/-- What a blank line holds is blank or belongs to its end. -/
theorem isSpace_of_mem_span (hline : line ∈ (LineIndex.ofText script).countedLines)
    (hblank : ∀ c ∈ line.text, isHorizontalSpace c = true) (hscript : script = p ++ c :: q)
    (hmem : p.byteLength ∈ line.span) : isSpace c = true := by
  have hne : script ≠ [] := by
    rw [hscript]
    exact List.append_ne_nil_of_right_ne_nil p (List.cons_ne_nil c q)
  obtain ⟨before, after, hsplit, -, hstart, -⟩ :=
    LineIndex.exists_append_of_mem_countedLines hne hline
  rw [Span.mem_iff, IndexedLine.span, hstart] at hmem
  have hc : c ∈ line.text ++ line.terminator := by
    rw [IndexedLine.text, IndexedLine.terminator, withoutTerminator_append_terminator]
    exact Text.mem_of_append_eq (hsplit.symm.trans hscript) hmem.1 hmem.2
  rw [isSpace, Bool.or_eq_true]
  exact (List.mem_append.mp hc).imp (hblank c) isLineBreak_of_mem_terminator

section Spaces

variable {s : Span}
  (hspaces : ∀ (p : Text) (c : Char) (q : Text), script = p ++ c :: q →
    p.byteLength ∈ s → isSpace c = true)
  (ht : t ∈ tokenize script) (hmeets : s.Meets t.span)

include hspaces ht hmeets

/-- What is not trivia **begins before** the blanks and line ends it goes on
over. -/
theorem start_lt_of_spaces (htrivia : ¬ t.kind.isTrivia = true) (hunknown : t.kind ≠ .unknown) :
    t.span.start < s.start := by
  obtain ⟨n, ⟨-, hn⟩, hnt, -⟩ := hmeets
  obtain ⟨hne, b, a, hscript, hspan⟩ := liesIn_of_mem_tokenize ht
  obtain ⟨c, cs, htext⟩ := List.exists_cons_of_ne_nil hne
  rw [htext] at hscript
  by_contra hge
  refine not_isSpace_of_text_eq_cons ht htrivia hunknown htext (hspaces b c (cs ++ a) hscript ?_)
  rw [hspan] at hge hnt
  exact ⟨Nat.le_of_not_lt hge, Nat.lt_of_le_of_lt hnt hn⟩

/-- A closed comment, string or template **ends behind** those it goes on
over. -/
theorem stop_le_of_spaces {d : Delimiters} (hd : d ∈ Delimiters.all) (hkind : t.kind = d.closed) :
    s.stop ≤ t.span.stop := by
  obtain ⟨n, ⟨hn, -⟩, -, hnt⟩ := hmeets
  obtain ⟨-, b, a, hscript, hspan⟩ := liesIn_of_mem_tokenize ht
  obtain ⟨w, c, htext, hsize, hc⟩ := Delimiters.exists_last hd ht hkind
  have hplace : script = (b ++ w) ++ c :: a := by
    rw [hscript, htext]
    simp only [List.append_assoc, List.singleton_append]
  by_contra hlt
  refine hc (hspaces (b ++ w) c a hplace ?_)
  rw [Span.mem_iff]
  rw [hspan, htext] at hlt hnt
  simp only [byteLength_append, byteLength_cons, byteLength_nil, hsize] at hlt hnt ⊢
  omega

/-- A comment or template **takes in** those it goes on over. -/
theorem within_of_spaces (hkind : t.kind = .blockComment ∨ t.kind = .template) :
    s.Within t.span := by
  obtain ⟨d, hd, hkind⟩ := Delimiters.exists_of_kind hkind
  have hclosed : ∀ d ∈ Delimiters.all, ¬ d.closed.isTrivia = true ∧ d.closed ≠ .unknown := by
    decide
  obtain ⟨htrivia, hunknown⟩ := hclosed d hd
  rw [← hkind] at htrivia hunknown
  exact ⟨Nat.le_of_lt (start_lt_of_spaces hspaces ht hmeets htrivia hunknown),
    stop_le_of_spaces hspaces ht hmeets hd hkind⟩

end Spaces

/-- What has a byte in common with a vacant line is **trivia**. -/
theorem isTrivia_of_isVacant {ecmaVersion : Nat}
    (haccepted : ∀ t ∈ tokenize script, ¬ t.Offends ecmaVersion)
    (hline : line ∈ (LineIndex.ofText script).countedLines)
    (hvacant : line.IsVacant (tokenize script)) (ht : t ∈ tokenize script)
    (hmeets : line.span.Meets t.span) : t.kind.isTrivia = true := by
  by_contra htrivia
  have hunknown : t.kind ≠ .unknown := fun hk => haccepted t ht (Or.inl (by simp [hk]))
  have hspaces (p : Text) (c : Char) (q : Text) (hscript : script = p ++ c :: q) :
      p.byteLength ∈ line.span → isSpace c = true :=
    isSpace_of_mem_span hline hvacant.blank hscript
  have hbefore : t.span.start < line.start :=
    start_lt_of_spaces hspaces ht hmeets htrivia hunknown
  -- with the line feed before the line in it, it is a comment or a template
  have hkind : t.kind = .blockComment ∨ t.kind = .template := by
    have hscript : script ≠ [] := fun hnil => by simp [tokenize_eq_nil_iff.mpr hnil] at ht
    obtain ⟨before, after, hsplit, hclosed, hstart, -⟩ :=
      LineIndex.exists_append_of_mem_countedLines hscript hline
    obtain ⟨n, ⟨hn, -⟩, -, hnt⟩ := hmeets
    have hstop : before.byteLength ≤ t.span.stop :=
      hstart ▸ Nat.le_trans hn (Nat.le_of_lt hnt)
    rw [hstart] at hbefore
    exact TokenKind.eq_of_spansLines
      (spansLines_of_mem ht ((liesIn_of_mem_tokenize ht).newline_mem hsplit hclosed hbefore hstop))
      (haccepted t ht) htrivia
  refine hvacant.outside t ht (hkind.imp_left fun hk => ?_)
    (within_of_spaces hspaces ht hmeets hkind)
  rw [hk]
  rfl

/-- Of the lines that count, the vacant ones are those that **hold only
trivia**. -/
theorem isVacant_iff {ecmaVersion : Nat}
    (haccepted : ∀ t ∈ tokenize script, ¬ t.Offends ecmaVersion)
    (hline : line ∈ (LineIndex.ofText script).countedLines) :
    line.IsVacant (tokenize script) ↔
      ∀ t ∈ tokenize script, line.span.Meets t.span → t.kind.isTrivia = true := by
  refine ⟨fun h t ht => isTrivia_of_isVacant haccepted hline h ht,
    fun h => ⟨blank_of_forall_isTrivia hline h, fun t ht hkind hwithin => ?_⟩⟩
  have hscript : script ≠ [] := fun hnil => by simp [tokenize_eq_nil_iff.mpr hnil] at ht
  have hmeets := hwithin.meets (LineIndex.start_lt_stop_of_mem_countedLines hscript hline)
  rcases TokenKind.isTrivia_iff.mp (h t ht hmeets) with hk | hk
  all_goals
    rw [hk] at hkind
    exact absurd hkind (by decide)

-- ---------------------------------------------------------------------------
-- The counts of a script
-- ---------------------------------------------------------------------------

/-- No token of an accepted script offends. -/
theorem not_offends_of_analyze_ok {options : AnalysisOptions} {a : Analysis}
    (h : analyze options script = .ok a) :
    ∀ t ∈ tokenize script, ¬ t.Offends options.ecmaVersion := by
  rw [← tokenError?_eq_none_iff]
  rw [analyze_eq] at h
  cases herror : tokenError? options.ecmaVersion (tokenize script) with
  | none => rfl
  | some e =>
    rw [herror] at h
    cases h

/-- A line holds only trivia if it holds neither code nor comments. -/
theorem forall_isTrivia_iff {tokens : List Token} :
    (∀ t ∈ tokens, line.span.Meets t.span → t.kind.isTrivia = true) ↔
      ¬ line.Holds (significant tokens) ∧ ¬ line.Holds (tokens.filter (·.kind.isComment)) := by
  constructor
  · intro h
    refine ⟨?_, ?_⟩
    all_goals
      rintro ⟨t, ht, hmeets⟩
      obtain ⟨ht, hk⟩ := List.mem_filter.mp ht
      rcases TokenKind.isTrivia_iff.mp (h t ht hmeets) with htrivia | htrivia
      all_goals
        simp [Token.isSignificant, htrivia, TokenKind.isSignificant, TokenKind.isComment,
          TokenKind.isTrivia] at hk
  · rintro ⟨hcode, hcomments⟩ t ht hmeets
    by_contra htrivia
    by_cases hk : t.kind.isComment = true
    · exact hcomments ⟨t, List.mem_filter.mpr ⟨ht, hk⟩, hmeets⟩
    · refine hcode ⟨t, List.mem_filter.mpr ⟨ht, ?_⟩, hmeets⟩
      rw [Bool.not_eq_true] at htrivia hk
      rw [Token.isSignificant, TokenKind.isSignificant, htrivia, hk]
      rfl

theorem countP_le_add {α : Type} {p q r : α → Bool} {l : List α}
    (h : ∀ x ∈ l, r x = true → p x = true ∨ q x = true) :
    l.countP r ≤ l.countP p + l.countP q := by
  induction l with
  | nil => exact Nat.zero_le _
  | cons x l ih =>
    obtain ⟨hx, hl⟩ := List.forall_mem_cons.mp h
    have hone : (if r x = true then 1 else 0) ≤
        (if p x = true then 1 else 0) + (if q x = true then 1 else 0) := by
      by_cases hr : r x = true
      · rcases hx hr with hp | hq
        · simp [hr, hp]
        · simp [hr, hq]
      · simp [hr]
    have hle := ih hl
    simp only [List.countP_cons]
    omega

/-- The counts of an accepted script are **exact**: a line counts as code if a
token that is neither trivia nor comment has a byte in common with it, and as a
line of comments if a comment has.  It counts as neither if it is vacant. -/
theorem line_counts_are_exact {options : AnalysisOptions} {a : Analysis}
    (h : analyze options script = .ok a) :
    let lines := (LineIndex.ofText script).countedLines
    a.lines.code = lines.countP (·.Holds (significant a.tokens)) ∧
    a.lines.comments = lines.countP (·.Holds a.comments) ∧
    (∀ line ∈ lines, ¬ line.Holds (significant a.tokens) ∧ ¬ line.Holds a.comments ↔
      line.IsVacant a.tokens) ∧
    lines.countP (¬ ·.IsVacant a.tokens) ≤ a.lines.code + a.lines.comments ∧
    a.lines.code ≤ (LineIndex.ofText script).lineCount ∧
    a.lines.comments ≤ (LineIndex.ofText script).lineCount := by
  intro lines
  obtain ⟨htokens, -, hlines⟩ := eq_of_analyze_ok h
  have hcomments : a.comments = (tokenize script).filter (·.kind.isComment) := by
    rw [Analysis.comments, htokens]
  have hcounted (p : Token → Bool) : touchedLines (.ofText script) ((tokenize script).filter p) =
      lines.countP (·.Holds ((tokenize script).filter p)) :=
    touchedLines_eq_countP fun t ht => liesIn_of_mem_tokenize (List.mem_of_mem_filter ht)
  have hneither (line : IndexedLine) (hline : line ∈ lines) :
      ¬ line.Holds (significant a.tokens) ∧ ¬ line.Holds a.comments ↔ line.IsVacant a.tokens := by
    rw [hcomments, htokens, ← forall_isTrivia_iff,
      isVacant_iff (not_offends_of_analyze_ok h) hline]
  have hcode : a.lines.code = lines.countP (·.Holds (significant a.tokens)) := by
    rw [hlines, htokens]
    exact hcounted Token.isSignificant
  have hcomment : a.lines.comments = lines.countP (·.Holds a.comments) := by
    rw [hlines, hcomments]
    exact hcounted (·.kind.isComment)
  refine ⟨hcode, hcomment, hneither, ?_, ?_, ?_⟩
  · rw [hcode, hcomment]
    refine countP_le_add fun line hline hother => ?_
    simp only [decide_eq_true_eq] at hother ⊢
    by_contra hnone
    exact hother ((hneither line hline).mp (not_or.mp hnone))
  · rw [hlines]
    exact touchedLines_le _ _
  · rw [hlines]
    exact touchedLines_le _ _

/-- A comment and a template over three lines each, with a blank line in both,
and a blank line behind them that no line feed ends. -/
def blankLines : Text :=
  ['/', '*', '\n', ' ', '\r', '\n', '*', '/', '\x60', '\n', '\t', '\n', '\x60', '\r', '\n', '\x0c']

/-- Of its six lines one counts twice, and the last one not at all. -/
theorem line_counts_are_exact_blankLines :
    ∃ a, analyze {} blankLines = .ok a ∧ a.lines = ⟨3, 3⟩ ∧
      (LineIndex.ofText blankLines).countedLines.map IndexedLine.span =
        [⟨0, 3⟩, ⟨3, 6⟩, ⟨6, 10⟩, ⟨10, 12⟩, ⟨12, 15⟩, ⟨15, 16⟩] ∧
      ¬ IndexedLine.Holds (significant a.tokens) ⟨15, ['\x0c']⟩ ∧
      ¬ IndexedLine.Holds a.comments ⟨15, ['\x0c']⟩ := by
  have haccepted : (analyze {} blankLines).toOption.isSome = true := by decide +kernel
  obtain ⟨a, ha, htokens, -⟩ := exists_analysis_of_accepted haccepted
  obtain ⟨hcode, hcomments, hneither, -⟩ := line_counts_are_exact ha
  have hlast : IndexedLine.IsVacant a.tokens ⟨15, ['\x0c']⟩ := by
    rw [htokens]
    decide +kernel
  have hthree : a.lines = ⟨3, 3⟩ := by
    rw [htokens] at hcode
    rw [show a.comments = _ from congrArg (·.filter (·.kind.isComment)) htokens] at hcomments
    exact congrArg₂ LineTotals.mk (hcode.trans (by decide +kernel))
      (hcomments.trans (by decide +kernel))
  exact ⟨a, ha, hthree, by decide +kernel, (hneither _ (by decide +kernel)).mpr hlast⟩

end FenceFacts
