import FenceFacts.Proofs.LineCounts
import FenceFacts.Proofs.LineEnds.Lexing

/-!
# FenceFacts — checking with two kinds of line ends

Written with carriage returns, a script is accepted or rejected as before, for
the same reason and at the same position.  It has as many lines, and each of
its tokens reaches over the same ones: only a token that ended between a
carriage return and its line feed could lose a line, and there is none.

## Results

* `positionOf_crlf` — positions of offsets between characters.
* `lineRange_crlf`  — the lines of a token.
* `analyze_crlf`    — the analysis of a script.
-/

namespace FenceFacts

open Text

variable {script : Text}

-- ---------------------------------------------------------------------------
-- The line index
-- ---------------------------------------------------------------------------

theorem lineCount_crlf (script : Text) :
    (LineIndex.ofText script.crlf).lineCount = (LineIndex.ofText script).lineCount := by
  by_cases h : script = []
  · rw [h]
    rfl
  · have hcrlf : script.crlf ≠ [] := fun hnil => h (crlf_eq_nil_iff.mp hnil)
    rw [LineIndex.lineCount_ofText h, LineIndex.lineCount_ofText hcrlf, lines_crlf,
      List.length_map]

theorem positionOf_crlf {offset : Nat} (h : script.IsBoundary offset) :
    (LineIndex.ofText script.crlf).positionOf (script.crlfOffset offset) =
      (LineIndex.ofText script).positionOf offset := by
  obtain ⟨before, after, rfl, rfl⟩ := h
  rw [crlfOffset_append, crlf_append, LineIndex.positionOf_ofText_append,
    LineIndex.positionOf_ofText_append, advance_crlf]

theorem lineRange_crlf {t : Token} (ht : t ∈ tokenize script)
    (hlast : t.text.getLast? ≠ some '\n') :
    ((Respelling.crlf script).token t).lineRange (.ofText script.crlf) =
      t.lineRange (.ofText script) := by
  obtain ⟨kind, piece, span⟩ := t
  obtain ⟨hne, before, after, rfl, rfl⟩ :
    piece ≠ [] ∧ ∃ before after, script = before ++ (piece ++ after) ∧
      span = ⟨before.byteLength, before.byteLength + piece.byteLength⟩ := liesIn_of_mem_tokenize ht
  dsimp only at hlast ⊢
  have hnecrlf : piece.crlf ≠ [] := fun hnil => hne (crlf_eq_nil_iff.mp hnil)
  have hlastcrlf : piece.crlf.getLast? ≠ some '\n' := by
    have hterm := isTerminated_crlf piece
    simpa only [isTerminated, beq_eq_beq, hlast, iff_false] using hterm
  rw [token_crlf_append, crlf_append, crlf_append, lineRange_append hnecrlf hlastcrlf,
    lineRange_append hne hlast, ← crlf_append, count_crlf, count_crlf]

-- ---------------------------------------------------------------------------
-- The analysis
-- ---------------------------------------------------------------------------

/-- The tokens of an accepted script reach over the same lines, whichever of
them are looked at, line ends aside. -/
theorem countLines_crlf {options : AnalysisOptions} {a : Analysis}
    (h : analyze options script = .ok a) :
    countLines (.ofText script.crlf) ((tokenize script).map (Respelling.crlf script).token) =
      countLines (.ofText script) (tokenize script) := by
  have htouched {tokens : List Token}
      (htokens : ∀ t ∈ tokens, t ∈ tokenize script ∧ t.kind ≠ .newline) :
      touchedLines (.ofText script.crlf) (tokens.map (Respelling.crlf script).token) =
        touchedLines (.ofText script) tokens := by
    refine (Respelling.crlf script).touchedLines_map (lineCount_crlf script) fun t ht => ?_
    obtain ⟨hmem, hkind⟩ := htokens t ht
    exact lineRange_crlf hmem (getLast?_ne_newline_of_accepted h hmem hkind)
  have hfilter {p : TokenKind → Bool} (hp : p .newline = false) :
      ∀ t ∈ (tokenize script).filter (p ·.kind), t ∈ tokenize script ∧ t.kind ≠ .newline := by
    intro t ht
    obtain ⟨hmem, hkind⟩ := List.mem_filter.mp ht
    refine ⟨hmem, fun hnewline => ?_⟩
    rw [hnewline, hp] at hkind
    cases hkind
  have hcode := htouched (hfilter (p := TokenKind.isSignificant) rfl)
  have hcomments := htouched (hfilter (p := TokenKind.isComment) rfl)
  rw [countLines, countLines, Respelling.significant_map, List.filter_map]
  exact congrArg₂ LineTotals.mk hcode hcomments

/-- A script has **the same analysis**, with the carriage returns in it. -/
theorem analyze_crlf (hcr : '\r' ∉ script) (options : AnalysisOptions) :
    analyze options script.crlf =
      ((analyze options script).map (Respelling.crlf script).analysis).mapError
        (Respelling.crlf script).error := by
  have hstop := crlfOffset_append script []
  rw [List.append_nil] at hstop
  exact (Respelling.crlf script).analyze_respelled (tokenize_crlf hcr) hstop.symm
    (fun _ _ h => countLines_crlf h) options

end FenceFacts
