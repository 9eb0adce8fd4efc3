import FenceFacts.Proofs.LineFacts
import FenceFacts.Proofs.LineMarks

/-!
# FenceFacts — terminators

A line ends with a line feed, or with a carriage return and a line feed, or
where its text does.  The index takes all carriage returns and line feeds at
the end of a line for its terminator, which is the same unless two carriage
returns stand before the line feed.  The lexer lets a carriage return pass only
in front of a line feed and inside of comments and templates, and none of these
ends with one.  So an accepted script has no carriage return at its very end,
and a terminator that is more than a line end lies in a comment or template.

## Results

* `exists_token_of_carriageReturn` — carriage returns of an accepted script.
* `terminator_of_mem_countedLines` — terminators of its lines.
* `terminators_are_lineEnds_outside_comments` — terminators in facts.
* `returns_taken_into_terminator` — inside of comments they can be more.
-/

namespace FenceFacts

open Text

variable {script p q : Text} {line : IndexedLine}

-- ---------------------------------------------------------------------------
-- Line ends
-- ---------------------------------------------------------------------------

/-- A line feed, a carriage return and a line feed, or nothing. -/
def Text.IsLineEnd (t : Text) : Prop := t = [] ∨ t = ['\n'] ∨ t = ['\r', '\n']

instance (t : Text) : Decidable t.IsLineEnd :=
  inferInstanceAs (Decidable (t = [] ∨ t = ['\n'] ∨ t = ['\r', '\n']))

/-- What is cut off at the end of a piece of a line are carriage returns. -/
theorem Text.exists_terminator_eq_replicate {m : Text} (hm : '\n' ∉ m) :
    ∃ n, m.terminator = List.replicate n '\r' := by
  refine ⟨_, List.eq_replicate_iff.mpr ⟨rfl, fun c hc => ?_⟩⟩
  refine (isLineBreak_iff.mp (isLineBreak_of_mem_terminator hc)).resolve_right ?_
  rintro rfl
  exact hm (terminator_subset m hc)

/-- A terminator is more than a line end if there are two carriage returns
before the line feed. -/
theorem Text.not_isLineEnd_of_suffix {t : Text} (h : ['\r', '\r', '\n'] <:+ t) :
    ¬ t.terminator.IsLineEnd := by
  obtain ⟨s, rfl⟩ := h
  have hbreaks : ∀ c ∈ ['\r', '\r', '\n'], isLineBreak c = true := by
    simp [isLineBreak]
  rw [terminator_append hbreaks]
  intro hend
  have hlength : (terminator s ++ ['\r', '\r', '\n']).length ≤ 2 := by
    rcases hend with h | h | h <;> rw [h] <;> decide
  rw [List.length_append] at hlength
  exact absurd hlength (by simp)

/-- A line that counts and has no line feed is the last thing in its text. -/
theorem LineIndex.exists_append_of_newline_not_mem
    (hline : line ∈ (LineIndex.ofText script).countedLines) (h : '\n' ∉ line.raw) :
    ∃ before, script = before ++ line.raw := by
  by_cases hscript : script = []
  · rw [hscript, countedLines_ofText_nil, List.mem_singleton] at hline
    exact ⟨[], by rw [hscript, hline]; rfl⟩
  · obtain ⟨ls, ls', hls, -⟩ := exists_lines_of_mem_countedLines hscript hline
    rcases List.eq_nil_or_concat' ls' with rfl | ⟨ls', last, rfl⟩
    · refine ⟨ls.flatten, ?_⟩
      rw [← Text.flatten_lines script, hls]
      simp
    · have hinner : line.raw ∈ script.lines.dropLast := by
        rw [hls, ← List.cons_append, ← List.append_assoc, List.dropLast_concat]
        exact List.mem_append_right ls List.mem_cons_self
      obtain ⟨s, hs⟩ := isTerminated_iff.mp (isTerminated_of_mem_dropLast_lines hinner)
      rw [hs] at h
      exact absurd (List.mem_append_right s List.mem_cons_self) h

/-- Where the terminator of a line stands. -/
theorem exists_terminator_place (hscript : script ≠ [])
    (hline : line ∈ (LineIndex.ofText script).countedLines) :
    ∃ before after, script = before ++ (line.terminator ++ after) ∧
      (⟨line.start + line.text.byteLength, line.span.stop⟩ : Span) =
        ⟨before.byteLength, before.byteLength + line.terminator.byteLength⟩ := by
  obtain ⟨before, after, hsplit, -, hstart, -⟩ :=
    LineIndex.exists_append_of_mem_countedLines hscript hline
  have hraw : line.raw = line.text ++ line.terminator :=
    (withoutTerminator_append_terminator line.raw).symm
  refine ⟨before ++ line.text, after, ?_, ?_⟩
  · rw [hsplit, hraw]
    simp only [List.append_assoc]
  · rw [IndexedLine.span, hraw, byteLength_append, byteLength_append, hstart, Nat.add_assoc]

-- ---------------------------------------------------------------------------
-- Carriage returns in accepted scripts
-- ---------------------------------------------------------------------------

section Accepted

variable {ecmaVersion : Nat} (haccepted : ∀ t ∈ tokenize script, ¬ t.Offends ecmaVersion)

include haccepted

/-- A carriage return without a line feed behind it stands **inside of a
comment or template**. -/
theorem exists_token_of_carriageReturn (hscript : script = p ++ '\r' :: q)
    (hq : ∀ r, q ≠ '\n' :: r) :
    q ≠ [] ∧ ∃ t ∈ tokenize script, (t.kind = .blockComment ∨ t.kind = .template) ∧
      p.byteLength ∈ t.span := by
  obtain ⟨t, ht, hmem, x, y, after, htext, hbehind⟩ := exists_token_at hscript
  have hc : '\r' ∈ t.text := htext ▸ List.mem_append_right x List.mem_cons_self
  have hkind : t.kind = .blockComment ∨ t.kind = .template := by
    rcases spansLines_or_of_isLineBreak ht hc rfl with hspans | ⟨hunknown, -⟩
    · refine TokenKind.eq_of_spansLines hspans (haccepted t ht) fun htrivia => ?_
      rcases mem_text_of_isTrivia ht htrivia htext with hblank | hfeed | ⟨-, rfl⟩
      · exact absurd hblank (by decide)
      · exact absurd hfeed (by decide)
      · exact hq after hbehind
    · exact absurd (Or.inl (by simp [hunknown])) (haccepted t ht)
  refine ⟨?_, t, ht, hkind, hmem⟩
  -- the token does not end with the carriage return, so something is left behind it
  rintro rfl
  obtain ⟨d, hd, hclosed⟩ := Delimiters.exists_of_kind hkind
  obtain ⟨w, c, hlast, -, hspace⟩ := Delimiters.exists_last hd ht hclosed
  obtain ⟨rfl, -⟩ := List.append_eq_nil_iff.mp hbehind.symm
  obtain ⟨-, hc⟩ := List.append_inj' (htext.symm.trans hlast) rfl
  obtain ⟨rfl, -⟩ := List.cons.inj hc
  exact hspace (by decide)

/-- The terminator of a line is a **line end**, or a line feed behind two or
more carriage returns. -/
theorem terminator_of_mem_countedLines (hline : line ∈ (LineIndex.ofText script).countedLines) :
    line.terminator.IsLineEnd ∨
      ∃ n, line.terminator = List.replicate (n + 2) '\r' ++ ['\n'] := by
  obtain ⟨m, hm, hraw⟩ := LineIndex.exists_raw_of_mem_countedLines hline
  obtain ⟨n, hn⟩ := exists_terminator_eq_replicate hm
  rcases hraw with hraw | hraw
  · have hterminator : line.terminator = List.replicate n '\r' ++ ['\n'] := by
      rw [IndexedLine.terminator, hraw, terminator_append (by simp [isLineBreak]), hn]
    rcases n with _ | _ | n
    · exact Or.inl (Or.inr (Or.inl hterminator))
    · exact Or.inl (Or.inr (Or.inr hterminator))
    · exact Or.inr ⟨n, hterminator⟩
  · rw [← hraw] at hm hn
    cases n with
    | zero => exact Or.inl (Or.inl hn)
    | succ n =>
      -- nothing stands behind the last line, and a carriage return cannot be the last thing
      obtain ⟨before, hscript⟩ := LineIndex.exists_append_of_newline_not_mem hline hm
      have hplace : script = (before ++ (line.text ++ List.replicate n '\r')) ++ '\r' :: [] := by
        rw [hscript, ← withoutTerminator_append_terminator line.raw, hn, List.replicate_succ']
        simp only [List.append_assoc]
        rfl
      exact absurd rfl (exists_token_of_carriageReturn haccepted hplace (by simp)).1

/-- A terminator that is more than a line end lies **inside of a comment or
template**. -/
theorem exists_token_of_not_isLineEnd (hline : line ∈ (LineIndex.ofText script).countedLines)
    (hend : ¬ line.terminator.IsLineEnd) :
    ∃ t ∈ tokenize script, (t.kind = .blockComment ∨ t.kind = .template) ∧
      Span.Within ⟨line.start + line.text.byteLength, line.span.stop⟩ t.span := by
  obtain ⟨n, hterminator⟩ := (terminator_of_mem_countedLines haccepted hline).resolve_left hend
  have hnonempty : script ≠ [] := by
    rintro rfl
    rw [LineIndex.countedLines_ofText_nil, List.mem_singleton] at hline
    rw [hline] at hend
    exact hend (Or.inl rfl)
  obtain ⟨before, after, hscript, hspan⟩ := exists_terminator_place hnonempty hline
  rw [hspan]
  -- the token of the first carriage return takes all of the terminator in
  have hreturn : script = before ++ '\r' :: (List.replicate (n + 1) '\r' ++ ['\n'] ++ after) := by
    rw [hscript, hterminator, List.replicate_succ]
    rfl
  obtain ⟨-, t, ht, hkind, hmem⟩ := exists_token_of_carriageReturn haccepted hreturn
    fun r hr => by cases hr
  have hmeets : Span.Meets ⟨before.byteLength, before.byteLength + line.terminator.byteLength⟩
      t.span := by
    refine ⟨_, ⟨Nat.le_refl _, ?_⟩, hmem⟩
    have hsize := Char.utf8Size_pos '\r'
    rw [hterminator, List.replicate_succ, List.cons_append, byteLength_cons]
    show before.byteLength < before.byteLength + _
    omega
  refine ⟨t, ht, hkind, within_of_spaces (fun x c y hplace hx => ?_) ht hmeets hkind⟩
  have hc : c ∈ line.terminator := Text.mem_of_append_eq (hscript.symm.trans hplace) hx.1 hx.2
  rw [isSpace, isLineBreak_of_mem_terminator hc, Bool.or_true]

end Accepted

-- ---------------------------------------------------------------------------
-- Terminators in facts
-- ---------------------------------------------------------------------------

section Facts

variable {σ : Type} [FactStore σ] {options : ExtractionOptions}

/-- Of every line of an accepted snippet there is a fact, which divides the
whole line into text and terminator, and no text ends with a part of a line
end.  The terminator **is a line end unless two carriage returns stand before
the line feed**; then it lies inside of a comment or template. -/
theorem terminators_are_lineEnds_outside_comments (hlines : options.extractLines = true)
    (s : Snippet) (w w' : Workspace σ) (totals : LineTotals)
    (h : extractScript options s w = .ok totals w') :
    ∃ facts, FactStore.writeAll facts w.sink.store = .ok () w'.sink.store ∧
      (lineFacts facts).length = (LineIndex.ofText s.text).countedLines.length ∧
      ∀ (k : Nat) (m : LineFact), (lineFacts facts)[k]? = some m →
        ∃ line : IndexedLine, (LineIndex.ofText s.text).countedLines[k]? = some line ∧
          m.text ++ m.terminator = line.raw ∧ (∀ c ∈ m.text.getLast?, ¬ isLineBreak c = true) ∧
          (m.terminator.IsLineEnd ↔ ¬ ['\r', '\r', '\n'] <:+ line.raw) ∧
          (¬ m.terminator.IsLineEnd → ∃ t ∈ tokenize s.text,
            (t.kind = .blockComment ∨ t.kind = .template) ∧
            Span.Within ⟨line.start + m.text.byteLength, line.span.stop⟩ t.span) := by
  obtain ⟨⟨a, ha⟩, facts, hwritten, hplaced⟩ := exists_facts_of_extractScript hlines h
  have haccepted := not_offends_of_analyze_ok ha
  refine ⟨facts, hwritten, ?_, fun k m hm => ?_⟩
  · rw [hplaced.length_eq, LineIndex.length_countedLines]
  obtain ⟨line, hline, htext, hterminator, -⟩ := hplaced.exists_line hm
  have hmem := List.mem_of_getElem? hline
  have htext : m.text = line.text := htext
  have hterminator : m.terminator = line.terminator := hterminator
  rw [htext, hterminator]
  refine ⟨line, hline, withoutTerminator_append_terminator line.raw, fun c hc hbreak => ?_,
    ⟨fun hend hreturns => not_isLineEnd_of_suffix hreturns hend, fun hreturns => ?_⟩,
    exists_token_of_not_isLineEnd haccepted hmem⟩
  · exact getLast?_withoutTerminator hbreak line.raw hc
  · refine (terminator_of_mem_countedLines haccepted hmem).resolve_right fun ⟨n, hn⟩ => hreturns ?_
    have hsuffix : ['\r', '\r', '\n'] <:+ line.terminator :=
      ⟨List.replicate n '\r', by rw [hn, List.replicate_add, List.append_assoc]; rfl⟩
    exact hsuffix.trans ⟨line.text, withoutTerminator_append_terminator line.raw⟩

end Facts

/-- A comment over two lines, the first of which ends with two carriage returns
and a line feed. -/
def returnsBeforeLineEnd : Snippet where
  text := ['/', '*', '\r', '\r', '\n', '*', '/']
  kind := .inlineScript
  translator := {}
  file := ⟨1⟩

theorem terminators_are_lineEnds_outside_comments_returnsBeforeLineEnd :
    ∃ totals w', extractScript {} returnsBeforeLineEnd (⟨{}, ⟨{}, 1, []⟩⟩ : Workspace FactList) =
        .ok totals w' ∧
      ∃ facts, w'.sink.store.facts = facts ∧ (lineFacts facts).length = 2 ∧
        (∀ m, (lineFacts facts)[0]? = some m → ¬ m.terminator.IsLineEnd) ∧
        ∀ m, (lineFacts facts)[1]? = some m → m.terminator.IsLineEnd := by
  obtain ⟨totals, w', hrun⟩ : ∃ totals w', extractScript {} returnsBeforeLineEnd
      (⟨{}, ⟨{}, 1, []⟩⟩ : Workspace FactList) = .ok totals w' :=
    exists_ok_of_readScript (by decide +kernel) (FactStore.takesAll_factList _)
  have hlines : ({} : ExtractionOptions).extractLines = true := rfl
  obtain ⟨facts, hwritten, hlength, hends⟩ :=
    terminators_are_lineEnds_outside_comments hlines returnsBeforeLineEnd _ w' totals hrun
  refine ⟨totals, w', hrun, facts, ?_, hlength.trans (by decide +kernel), fun m hm => ?_,
    fun m hm => ?_⟩
  · rw [FactStore.factList_eq_of_writeAll hwritten]
    rfl
  · obtain ⟨line, hline, -, -, hend, -⟩ := hends 0 m hm
    have hfirst : line = ⟨0, ['/', '*', '\r', '\r', '\n']⟩ :=
      Option.some.inj (hline.symm.trans (by decide +kernel))
    rw [hend, hfirst]
    decide
  · obtain ⟨line, hline, -, -, hend, -⟩ := hends 1 m hm
    have hsecond : line = ⟨5, ['*', '/']⟩ :=
      Option.some.inj (hline.symm.trans (by decide +kernel))
    rw [hend, hsecond]
    decide

/-- Not every terminator is a line end: the carriage return before the line end
of the comment is **taken into the terminator**. -/
theorem returns_taken_into_terminator :
    ¬ ∀ (s : Snippet) (w' : Workspace FactList) (totals : LineTotals),
      extractScript {} s (⟨{}, ⟨{}, 1, []⟩⟩ : Workspace FactList) = .ok totals w' →
        ∀ m ∈ lineFacts w'.sink.store.facts, m.terminator.IsLineEnd := by
  intro hends
  obtain ⟨totals, w', hrun⟩ : ∃ totals w', extractScript {} returnsBeforeLineEnd
      (⟨{}, ⟨{}, 1, []⟩⟩ : Workspace FactList) = .ok totals w' :=
    exists_ok_of_readScript (by decide +kernel) (FactStore.takesAll_factList _)
  obtain ⟨-, facts, hwritten, hplaced⟩ := exists_facts_of_extractScript rfl hrun
  have hparts : (lineFacts facts).map (fun m => (m.text, m.terminator)) =
      [(['/', '*'], ['\r', '\r', '\n']), (['*', '/'], [])] :=
    hplaced.map_parts.trans (by decide +kernel)
  have hmem : (['/', '*'], ['\r', '\r', '\n']) ∈
      (lineFacts facts).map fun m => (m.text, m.terminator) :=
    hparts ▸ List.mem_cons_self
  obtain ⟨m, hm, hpart⟩ := List.mem_map.mp hmem
  have hend := hends returnsBeforeLineEnd w' totals hrun m (by
    rw [FactStore.factList_eq_of_writeAll hwritten]
    exact hm)
  rw [(Prod.mk.inj hpart).2] at hend
  exact absurd hend (by decide)

end FenceFacts
