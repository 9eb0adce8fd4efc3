import FenceFacts.Proofs.JsonLines
import FenceFacts.Proofs.LineMarks

/-!
# FenceFacts — where line ends can hide

A line feed is the end of a line for the index wherever it stands, and for the
lexer only where no comment or template goes on over it.  Every other rule
stops before a line end: the flags of a regular expression, the escapes of a
string and the runs of blanks, digits and letters alike.  So a line feed is
the end of a line end token or lies inside of a comment or template.  A
carriage return does too, or it is a token of its own, which no script may
hold.

Tokens that are no comments or templates therefore lie on one line each, and
a line end token ends a line, which is its own.

## Results

* `lineBreak_cases`      — the tokens that hold parts of line ends.
* `eq_of_mem_spans`      — of spans in order, no two have a byte in common.
* `exists_line_of_piece` — a piece of a line lies on it.
* `line_ends_hide_inside_only` — what that means for a script.
-/

namespace FenceFacts

open Text

/-- The byte of a carriage return. -/
def carriageReturn : UInt8 := 13

/-- Comments between delimiters and templates, closed or not.  They go on over
line ends. -/
def TokenKind.isEnclosing : TokenKind → Bool
  | blockComment | unterminatedBlockComment | template | unterminatedTemplate => true
  | _ => false

theorem TokenKind.spansLines_iff {k : TokenKind} :
    k.spansLines = true ↔ k = .newline ∨ k.isEnclosing = true := by
  cases k <;> simp [spansLines, isEnclosing]

theorem TokenKind.not_isTrivia_of_isEnclosing {k : TokenKind} (h : k.isEnclosing = true) :
    ¬ k.isTrivia = true ∧ k ≠ .unknown := by
  cases k <;> simp_all [isEnclosing, isTrivia]

variable {script p q w v : Text} {c : Char} {t u : Token} {n : Nat}

-- ---------------------------------------------------------------------------
-- Parts of line ends
-- ---------------------------------------------------------------------------

/-- A line end is a line feed, or one behind a carriage return. -/
theorem text_of_newline (ht : t ∈ tokenize script) (hkind : t.kind = .newline) :
    t.text = ['\n'] ∨ t.text = ['\r', '\n'] := by
  obtain ⟨-, regexAllowed, x, cs, -, hlexeme, htext, -⟩ := exists_nextLexeme_of_mem ht
  obtain ⟨d, r, hcons⟩ := List.exists_cons_of_ne_nil (liesIn_of_mem_tokenize ht).1
  rw [hkind] at hlexeme
  have hspelled : (nextLexeme regexAllowed x cs).kind ∉ [.unknown, .regex, .unterminatedRegex] := by
    rw [← hlexeme]
    decide
  have hmem := nextLexeme_mem_textsOf hspelled
  rw [← hlexeme, ← htext, hcons, Lexicon.mem_textsOf] at hmem
  rw [hcons]
  simp [Lexicon.rules] at hmem
  rcases hmem with ⟨rfl, rfl⟩ | ⟨rfl, rfl⟩ <;> simp

/-- A part of a line end **is at its place** in a line end, lies behind the
first character of a comment or template, or is a carriage return alone. -/
theorem lineBreak_cases (ht : t ∈ tokenize script) (htext : t.text = w ++ c :: v)
    (hbreak : isLineBreak c = true) :
    t.kind = .newline ∧ (c = '\n' ∧ v = [] ∨ c = '\r' ∧ w = [] ∧ v = ['\n']) ∨
      t.kind.isEnclosing = true ∧ w ≠ [] ∨
      t.kind = .unknown ∧ c = '\r' ∧ w = [] ∧ v = [] := by
  have hc : c ∈ t.text := htext ▸ List.mem_append_right w List.mem_cons_self
  rcases spansLines_or_of_isLineBreak ht hc hbreak with hspans | ⟨hunknown, hreturn⟩
  · rcases TokenKind.spansLines_iff.mp hspans with hnewline | henclosing
    · refine Or.inl ⟨hnewline, ?_⟩
      have hends := text_of_newline ht hnewline
      rw [htext] at hends
      cases w with
      | nil =>
        rcases hends with h | h <;> obtain ⟨rfl, rfl⟩ := List.cons.inj h <;> simp
      | cons d w =>
        -- what stands behind a first character is the line feed
        refine Or.inl ?_
        rcases hends with h | h
        · have hnone : w ++ c :: v = [] := (List.cons.inj h).2
          exact absurd hnone (List.append_ne_nil_of_right_ne_nil w (List.cons_ne_nil c v))
        · have hlast : w ++ c :: v = ['\n'] := (List.cons.inj h).2
          rcases List.append_eq_singleton_iff.mp hlast with ⟨-, hcv⟩ | ⟨-, hcv⟩
          · exact List.cons.inj hcv
          · exact absurd hcv (List.cons_ne_nil c v)
    · refine Or.inr (Or.inl ⟨henclosing, ?_⟩)
      rintro rfl
      obtain ⟨htrivia, hunknown⟩ := TokenKind.not_isTrivia_of_isEnclosing henclosing
      refine not_isSpace_of_text_eq_cons ht htrivia hunknown htext ?_
      rw [isSpace, hbreak, Bool.or_true]
  · refine Or.inr (Or.inr ⟨hunknown, ?_⟩)
    rw [htext] at hreturn
    rcases List.append_eq_singleton_iff.mp hreturn with ⟨rfl, hcv⟩ | ⟨-, hcv⟩
    · obtain ⟨rfl, rfl⟩ := List.cons.inj hcv
      exact ⟨rfl, rfl, rfl⟩
    · exact absurd hcv (List.cons_ne_nil c v)

-- ---------------------------------------------------------------------------
-- Bytes in common
-- ---------------------------------------------------------------------------

/-- Of spans in order, **no two have a byte in common**. -/
theorem eq_of_mem_spans {α : Type} {span : α → Span} {l : List α}
    (h : l.Pairwise fun a b => (span a).stop ≤ (span b).start) {a b : α} (ha : a ∈ l) (hb : b ∈ l)
    (hna : n ∈ span a) (hnb : n ∈ span b) : a = b := by
  rw [Span.mem_iff] at hna hnb
  obtain ⟨i, hi, rfl⟩ := List.mem_iff_getElem.mp ha
  obtain ⟨j, hj, rfl⟩ := List.mem_iff_getElem.mp hb
  rcases Nat.lt_trichotomy i j with hlt | rfl | hlt
  · have hle := List.pairwise_iff_getElem.mp h i j hi hj hlt
    omega
  · rfl
  · have hle := List.pairwise_iff_getElem.mp h j i hj hi hlt
    omega

theorem Token.LiesIn.exists_at (h : t.LiesIn script) (hscript : script = p ++ c :: q)
    (hmem : p.byteLength ∈ t.span) :
    ∃ w v, t.text = w ++ c :: v ∧ p.byteLength = t.span.start + w.byteLength ∧
      t.span.stop = p.byteLength + Text.byteLength (c :: v) := by
  obtain ⟨-, before, after, hsplit, hspan⟩ := h
  rw [hspan] at hmem ⊢
  obtain ⟨w, v, htext, rfl, -⟩ :=
    Text.exists_of_append_eq (hsplit.symm.trans hscript) hmem.1 hmem.2
  refine ⟨w, v, htext, byteLength_append before w, ?_⟩
  rw [htext, byteLength_append, byteLength_append, Nat.add_assoc]

/-- Every byte of ASCII belongs to **exactly one token**, at a character of it. -/
theorem exists_token_of_getElem?_encode {b : UInt8} (hb : b.toNat < 0x80)
    (h : script.encode[n]? = some b) :
    ∃ t ∈ tokenize script, n ∈ t.span ∧ (∀ u ∈ tokenize script, n ∈ u.span → u = t) ∧
      ∃ w v, t.text = w ++ Char.ofNat b.toNat :: v ∧ n = t.span.start + w.byteLength ∧
        t.span.stop = n + Text.byteLength (Char.ofNat b.toNat :: v) := by
  obtain ⟨p, q, hscript, rfl⟩ := Utf8.exists_append_of_getElem?_encode hb h
  obtain ⟨t, ht, hmem, -⟩ := exists_token_at hscript
  exact ⟨t, ht, hmem, fun u hu hmem' => eq_of_mem_spans (pairwise_tokenize script) hu ht hmem' hmem,
    (liesIn_of_mem_tokenize ht).exists_at hscript hmem⟩

-- ---------------------------------------------------------------------------
-- The lines of pieces
-- ---------------------------------------------------------------------------

/-- A line of the text, behind others, is one of those that count. -/
theorem mem_countedLines_of_lines_eq {l : Text} {ls ls' : List Text}
    (h : script.lines = ls ++ l :: ls') :
    ⟨Text.byteLength ls.flatten, l⟩ ∈ (LineIndex.ofText script).countedLines := by
  have hscript : script ≠ [] := by
    rintro rfl
    cases ls <;> cases h
  rw [LineIndex.countedLines_ofText hscript, h, indexed_append, indexed, Nat.zero_add]
  exact List.mem_append_right _ List.mem_cons_self

/-- A piece of a line lies **on that line**. -/
theorem exists_line_of_piece {before piece after : Text}
    (hscript : script = before ++ (piece ++ after)) (hne : piece ≠ []) (hpiece : '\n' ∉ piece) :
    ∃ line ∈ (LineIndex.ofText script).countedLines,
      (⟨before.byteLength, before.byteLength + piece.byteLength⟩ : Span).Within line.span := by
  obtain ⟨a, m, rfl, ha, hm⟩ := exists_closed_append before
  have hwhole : '\n' ∉ m ++ piece := by
    simp [hm, hpiece]
  obtain ⟨rest, ls, hls⟩ := exists_lines_cons hwhole after (by simp [hne])
  have hlines : script.lines = a.lines ++ (m ++ piece ++ rest) :: ls := by
    rw [← hls, ← lines_append ha, hscript]
    simp only [List.append_assoc]
  refine ⟨_, mem_countedLines_of_lines_eq hlines, ?_, ?_⟩
  · simp only [IndexedLine.span, flatten_lines, byteLength_append]
    omega
  · simp only [IndexedLine.span, flatten_lines, byteLength_append]
    omega

/-- A piece that ends with its only line feed lies on a line **and ends it**. -/
theorem exists_line_of_terminated {before m after : Text}
    (hscript : script = before ++ (m ++ ['\n'] ++ after)) (hm : '\n' ∉ m) :
    ∃ line ∈ (LineIndex.ofText script).countedLines,
      (⟨before.byteLength, before.byteLength + Text.byteLength (m ++ ['\n'])⟩ : Span).Within
        line.span ∧
      line.span.stop = before.byteLength + Text.byteLength (m ++ ['\n']) ∧
      m ++ ['\n'] <:+ line.raw := by
  obtain ⟨a, front, rfl, ha, hfront⟩ := exists_closed_append before
  have hwhole : '\n' ∉ front ++ m := by
    simp [hfront, hm]
  have hlines : script.lines = a.lines ++ (front ++ m ++ ['\n']) :: after.lines := by
    rw [← lines_terminated_append hwhole, ← lines_append ha, hscript]
    simp only [List.append_assoc, List.singleton_append]
  refine ⟨_, mem_countedLines_of_lines_eq hlines, ⟨?_, ?_⟩, ?_, ?_⟩
  · simp only [IndexedLine.span, flatten_lines, byteLength_append]
    omega
  · simp only [IndexedLine.span, flatten_lines, byteLength_append]
    omega
  · simp only [IndexedLine.span, flatten_lines, byteLength_append]
    omega
  · exact ⟨front, (List.append_assoc front m _).symm⟩

/-- Of the lines that count no two have a byte in common. -/
theorem eq_of_mem_countedLines {l l' : IndexedLine}
    (hl : l ∈ (LineIndex.ofText script).countedLines)
    (hl' : l' ∈ (LineIndex.ofText script).countedLines) (hn : n ∈ l.span) (hn' : n ∈ l'.span) :
    l = l' :=
  eq_of_mem_spans ((LineIndex.pairwise_lines script).sublist (List.take_sublist _ _)) hl hl' hn hn'

/-- A line end **ends one line**, and no other line ends in it. -/
theorem exists_line_of_newline (ht : t ∈ tokenize script) (hkind : t.kind = .newline) :
    ∃ line ∈ (LineIndex.ofText script).countedLines, t.span.Within line.span ∧
      line.span.stop = t.span.stop ∧ t.text <:+ line.raw ∧
      ∀ other ∈ (LineIndex.ofText script).countedLines,
        other.span.stop - 1 ∈ t.span → other = line := by
  obtain ⟨m, hm, htext⟩ : ∃ m, '\n' ∉ m ∧ t.text = m ++ ['\n'] := by
    rcases text_of_newline ht hkind with h | h
    · exact ⟨[], by simp, h⟩
    · exact ⟨['\r'], by simp, h⟩
  have hlies := liesIn_of_mem_tokenize ht
  obtain ⟨-, before, after, hscript, hspan⟩ := hlies
  rw [htext] at hscript hspan ⊢
  obtain ⟨line, hline, hwithin, hstop, hsuffix⟩ := exists_line_of_terminated hscript hm
  rw [hspan]
  refine ⟨line, hline, hwithin, hstop, hsuffix, fun other hother hlast => ?_⟩
  have hne : script ≠ [] := by
    rw [hscript]
    simp
  -- the last byte of the other line lies in the line end, and so on the line that it ends
  have hbytes := LineIndex.start_lt_stop_of_mem_countedLines hne hother
  obtain ⟨hfrom, hto⟩ := hlast
  obtain ⟨hstart, -⟩ := hwithin
  refine eq_of_mem_countedLines (n := other.span.stop - 1) hother hline ⟨?_, ?_⟩ ⟨?_, ?_⟩
  · show other.start ≤ _
    omega
  · omega
  · dsimp only at hstart hfrom
    omega
  · rw [hstop]
    exact hto

/-- A token that does not go on over line ends lies **on one line**. -/
theorem exists_line_of_token (ht : t ∈ tokenize script) (hkind : t.kind.isEnclosing = false) :
    ∃ line ∈ (LineIndex.ofText script).countedLines, t.span.Within line.span := by
  by_cases hnewline : t.kind = .newline
  · obtain ⟨line, hline, hwithin, -⟩ := exists_line_of_newline ht hnewline
    exact ⟨line, hline, hwithin⟩
  · obtain ⟨hne, before, after, hscript, hspan⟩ := liesIn_of_mem_tokenize ht
    have hpiece : '\n' ∉ t.text := fun hmem => by
      rcases TokenKind.spansLines_iff.mp (spansLines_of_mem ht hmem) with h | h
      · exact hnewline h
      · rw [hkind] at h
        cases h
    rw [hspan]
    exact exists_line_of_piece hscript hne hpiece

theorem lineOf_stop_of_newline (ht : t ∈ tokenize script) (hkind : t.kind = .newline) :
    (LineIndex.ofText script).lineOf t.span.stop =
      (LineIndex.ofText script).lineOf t.span.start + 1 := by
  obtain ⟨-, before, after, hscript, hspan⟩ := liesIn_of_mem_tokenize ht
  have hcount : t.text.count '\n' = 1 := by
    rcases text_of_newline ht hkind with h | h <;> rw [h] <;> decide
  have hstart := LineIndex.lineOf_append before (t.text ++ after)
  have hstop := LineIndex.lineOf_append (before ++ t.text) after
  rw [List.append_assoc, byteLength_append, List.count_append, hcount] at hstop
  rw [hspan, hscript, hstart, hstop]

-- ---------------------------------------------------------------------------
-- Scripts
-- ---------------------------------------------------------------------------

/-- Line ends **are tokens or hide** inside of comments and templates: a line
feed is the last byte of a line end or lies behind the first character of a
comment or template, and a carriage return is the first of the two bytes of a
line end, or lies in such a place, or is a token of its own that starts no
other.  So every token but comments and templates lies on one line, and every
line end ends one line and no other. -/
theorem line_ends_hide_inside_only (script : Text) :
    (∀ n, script.encode[n]? = some lineFeed →
      ∃ t ∈ tokenize script, n ∈ t.span ∧ (∀ u ∈ tokenize script, n ∈ u.span → u = t) ∧
        (t.kind = .newline ∧ t.span.stop = n + 1 ∨
          t.kind.isEnclosing = true ∧ t.span.start < n)) ∧
    (∀ n, script.encode[n]? = some carriageReturn →
      ∃ t ∈ tokenize script, n ∈ t.span ∧ (∀ u ∈ tokenize script, n ∈ u.span → u = t) ∧
        (t.kind = .newline ∧ t.span = ⟨n, n + 2⟩ ∨
          t.kind.isEnclosing = true ∧ t.span.start < n ∨
          t.kind = .unknown ∧ t.span = ⟨n, n + 1⟩)) ∧
    (∀ t ∈ tokenize script, t.kind.isEnclosing = false →
      ∃ line ∈ (LineIndex.ofText script).countedLines, t.span.Within line.span) ∧
    ∀ t ∈ tokenize script, t.kind = .newline →
      (∃ line ∈ (LineIndex.ofText script).countedLines, line.span.stop = t.span.stop ∧
        t.text <:+ line.raw ∧
        ∀ other ∈ (LineIndex.ofText script).countedLines,
          other.span.stop - 1 ∈ t.span → other = line) ∧
      (LineIndex.ofText script).lineOf t.span.stop =
        (LineIndex.ofText script).lineOf t.span.start + 1 := by
  have hbehind {w : Text} (hw : w ≠ []) : 0 < w.byteLength :=
    Nat.pos_of_ne_zero (mt byteLength_eq_zero_iff.mp hw)
  refine ⟨fun n hn => ?_, fun n hn => ?_, fun t ht => exists_line_of_token ht, fun t ht hkind => ?_⟩
  · obtain ⟨t, ht, hmem, hunique, w, v, htext, hstart, hstop⟩ :=
      exists_token_of_getElem?_encode (by decide) hn
    refine ⟨t, ht, hmem, hunique, ?_⟩
    rcases lineBreak_cases ht htext (by decide) with
      ⟨hkind, ⟨-, rfl⟩ | ⟨hc, -⟩⟩ | ⟨hkind, hw⟩ | ⟨-, hc, -⟩
    · exact Or.inl ⟨hkind, hstop⟩
    · exact absurd hc (by decide)
    · have := hbehind hw
      exact Or.inr ⟨hkind, by omega⟩
    · exact absurd hc (by decide)
  · obtain ⟨t, ht, hmem, hunique, w, v, htext, hstart, hstop⟩ :=
      exists_token_of_getElem?_encode (by decide) hn
    refine ⟨t, ht, hmem, hunique, ?_⟩
    rcases lineBreak_cases ht htext (by decide) with
      ⟨hkind, ⟨hc, -⟩ | ⟨-, rfl, rfl⟩⟩ | ⟨hkind, hw⟩ | ⟨hkind, -, rfl, rfl⟩
    · exact absurd hc (by decide)
    · exact Or.inl ⟨hkind, congrArg₂ Span.mk hstart.symm hstop⟩
    · have := hbehind hw
      exact Or.inr (Or.inl ⟨hkind, by omega⟩)
    · exact Or.inr (Or.inr ⟨hkind, congrArg₂ Span.mk hstart.symm hstop⟩)
  · obtain ⟨line, hline, -, hends⟩ := exists_line_of_newline ht hkind
    exact ⟨⟨line, hline, hends⟩, lineOf_stop_of_newline ht hkind⟩

/-- A carriage return of its own, one inside of a comment and one in a line end. -/
example :
    (tokenize ['\r', '/', '*', '\r', '\n', '*', '/', '\r', '\n']).map (fun t => (t.kind, t.span)) =
      [(.unknown, ⟨0, 1⟩), (.blockComment, ⟨1, 7⟩), (.newline, ⟨7, 9⟩)] := by
  decide +kernel

end FenceFacts
