import FenceFacts.Proofs.Labels
import FenceFacts.Proofs.Lookups
import FenceFacts.Proofs.Range
import FenceFacts.Proofs.Statements

/-!
# FenceFacts — every step has an answer

Extraction takes many steps that have no answer everywhere: texts are cut at
byte offsets, lists are looked up by index, numbers are counted down, and
lines and columns are added up in a bounded range.  What makes each of them
safe is established somewhere else: that tokens tile their script, that the
line index starts at zero, that an index is kept in step with a list, that
brackets have been checked before they are counted.

In a document in range all of these steps have an answer, on every path and
with every option: the document is extracted, or has a script that is
rejected, or the store does not take a fact.

## Results

* `exists_of_regexTail_closed` — where a regular expression is cut.
* `scriptIsSafe_of_fitsBelow`  — the steps for one script.
* `extraction_is_safe`         — the steps for a document.
-/

namespace FenceFacts

-- ---------------------------------------------------------------------------
-- Regular expressions
-- ---------------------------------------------------------------------------

/-- A closed regular expression is cut **behind its closing slash**, and the
flags go on from there. -/
theorem exists_of_regexTail_closed {inClass escaped : Bool} {rest : Text}
    (h : (regexTail inClass escaped rest).closed = true) :
    ∃ body after, rest = body ++ '/' :: after ∧
      (regexTail inClass escaped rest).text = body ++ '/' :: after.takeWhile isFlag := by
  have later {c : Char} {cs : Text} {inClass escaped : Bool}
      (ih : ∃ body after, cs = body ++ '/' :: after ∧
        (regexTail inClass escaped cs).text = body ++ '/' :: after.takeWhile isFlag) :
      ∃ body after, c :: cs = body ++ '/' :: after ∧
        ((regexTail inClass escaped cs).cons c).text = body ++ '/' :: after.takeWhile isFlag := by
    obtain ⟨body, after, hrest, htext⟩ := ih
    exact ⟨c :: body, after, congrArg (c :: ·) hrest, congrArg (c :: ·) htext⟩
  fun_induction regexTail inClass escaped rest with
  | case1 => cases h
  | case2 => cases h
  | case7 inClass escaped c cs hbreak hescaped hbackslash hopen hclose hslash =>
    obtain rfl := of_decide_eq_true (Bool.and_eq_true_iff.mp hslash).1
    exact ⟨[], cs, rfl, rfl⟩
  | case3 _ _ _ _ ih => exact later (ih h)
  | case4 _ _ _ _ _ ih => exact later (ih h)
  | case5 _ _ _ _ _ _ ih => exact later (ih h)
  | case6 _ _ _ _ _ _ _ ih => exact later (ih h)
  | case8 _ _ _ _ _ _ _ _ _ _ ih => exact later (ih h)

/-- The reader can cut the script behind a regular expression that starts in
front of `rest`, and behind the slash that closes it. -/
structure RegexIsCut (rest : Text) : Prop where
  bump : rest.dropBytes? (regexTail false false rest).text.byteLength =
    some (regexTail false false rest).rest
  flags : (regexTail false false rest).closed = true → ∃ body after : Text,
    rest.charAt? body.byteLength = some '/' ∧
    rest.dropBytes? (body.byteLength + 1) = some after ∧
    (regexTail false false rest).text = body ++ '/' :: after.takeWhile isFlag

theorem regexIsCut (rest : Text) : RegexIsCut rest := by
  refine ⟨?_, fun hclosed => ?_⟩
  · have hcut := Text.dropBytes?_append (regexTail false false rest).text
      (regexTail false false rest).rest
    rwa [regexTail_text_append_rest] at hcut
  · obtain ⟨body, after, hrest, htext⟩ := exists_of_regexTail_closed hclosed
    refine ⟨body, after, ?_, ?_, htext⟩
    · rw [hrest]
      exact Text.charAt?_append body '/' after
    · have hcut := Text.dropBytes?_append (body ++ ['/']) after
      rwa [List.append_assoc, List.singleton_append, ← hrest, Text.byteLength_append] at hcut

-- ---------------------------------------------------------------------------
-- Positions
-- ---------------------------------------------------------------------------

/-- The numbers of the position are in range, and so are those that the
translator makes of them. -/
structure Position.IsCarried (t : Translator) (p : Position) : Prop where
  line_lt : p.line < Position.bound
  column_lt : p.column < Position.bound
  translated : ∃ q, t.translate p = .ok q

/-- A position that is read of the text is carried over. -/
theorem Text.FitsBelow.isCarried {t before after : Text} {n : Nat} (h : t.FitsBelow n)
    (ht : t = before ++ after) :
    (Position.first.advance before).IsCarried ⟨⟨n + 1, 1⟩⟩ := by
  obtain ⟨hline, hcolumn⟩ := h before after ht
  exact ⟨by omega, hcolumn, _, h.translate ht⟩

/-- Both ends of a piece of the text are carried over. -/
theorem Text.Spells.isCarried {t piece : Text} {l : Location} {n : Nat} (hl : t.Spells l piece)
    (h : t.FitsBelow n) : l.start.IsCarried ⟨⟨n + 1, 1⟩⟩ ∧ l.stop.IsCarried ⟨⟨n + 1, 1⟩⟩ := by
  obtain ⟨before, after, ht, rfl⟩ := hl
  obtain ⟨tail, htail⟩ := List.dropLast_prefix piece
  have hstop : t = (before ++ piece.dropLast) ++ (tail ++ after) := by
    rw [ht, List.append_assoc, ← List.append_assoc _ tail, htail]
  exact ⟨h.isCarried ht, h.isCarried hstop⟩

-- ---------------------------------------------------------------------------
-- Scripts
-- ---------------------------------------------------------------------------

/-- The steps that are taken for one script, whatever is found in it.  `tr` is
what carries its positions over. -/
structure ScriptIsSafe (options : AnalysisOptions) (script : Text) (tr : Translator) : Prop where
  /-- Every line can be cut out of the script, and its terminator out of the line. -/
  lines : ∀ (k : Nat) (line : IndexedLine), (LineIndex.ofText script).lines[k]? = some line →
    script.IsBoundary line.start ∧ script.IsBoundary ((LineIndex.ofText script).stopOf k) ∧
    script.slice? line.start ((LineIndex.ofText script).stopOf k) = some line.raw ∧
    line.raw.dropBytes? line.text.byteLength = some line.terminator
  /-- Every offset has a line, which starts no later. -/
  offsets : ∀ offset, 0 < ((LineIndex.ofText script).linesUpTo offset).length ∧
    ∃ line, (LineIndex.ofText script).lines[(LineIndex.ofText script).lineOf offset]? = some line ∧
      line.start ≤ offset
  /-- Every token can be cut out, and all of its lines count. -/
  tokens : ∀ t ∈ tokenize script, script.IsBoundary t.span.start ∧ script.IsBoundary t.span.stop ∧
    script.slice? t.span.start t.span.stop = some t.text ∧
    (t.lineRange (.ofText script)).1 ≤ (t.lineRange (.ofText script)).2 ∧
    (t.lineRange (.ofText script)).2 < (LineIndex.ofText script).lineCount
  /-- Every regular expression can be cut off, wherever one is read. -/
  regexes : ∀ before rest, script = before ++ '/' :: rest → RegexIsCut rest
  /-- Every statement starts at one of the significant tokens. -/
  statements : ∀ i ∈ statementStarts (tokenize script),
    ∃ t, (significant (tokenize script))[i]? = some t
  /-- Once the brackets are checked, the depth is not counted down from zero. -/
  depth : bracketError? script.byteLength (significant (tokenize script)) = none →
    ∀ before t after b, tokenize script = before ++ t :: after → t.kind = .closing b →
      (∃ found, statementStarts (tokenize script) =
        found ++ (StatementSearch.behind before).starts (t :: after)) ∧
      0 < (StatementSearch.behind before).depth
  /-- The error of a script has a position, … -/
  error : ∀ e, analyze options script = .error e →
    ((LineIndex.ofText script).positionOf e.offset).IsCarried tr
  /-- … and so has all that is found in one without an error. -/
  body : ∀ l, l = locationOf script (.ofText script) ⟨0, script.withoutTerminator.byteLength⟩ →
    l.start.IsCarried tr ∧ l.stop.IsCarried tr
  lineLocations : ∀ line number, (line, number) ∈ (LineIndex.ofText script).countedLines.zipIdx 1 →
    (lineLocation number line.text).start.IsCarried tr ∧
    (lineLocation number line.text).stop.IsCarried tr
  tokenLocations : ∀ t ∈ tokenize script, ∀ l, l = locationOf script (.ofText script) t.span →
    l.start.IsCarried tr ∧ l.stop.IsCarried tr

theorem scriptIsSafe_of_fitsBelow (options : AnalysisOptions) {script : Text} {n : Nat}
    (h : script.FitsBelow n) : ScriptIsSafe options script ⟨⟨n + 1, 1⟩⟩ where
  lines k line hline := by
    obtain ⟨hstart, hstop, hslice⟩ := LineIndex.slice?_of_getElem?_lines hline
    exact ⟨hstart, hstop, hslice, line.dropBytes?_text⟩
  offsets := LineIndex.exists_line_of_offset script
  tokens t ht := by
    have hlies := liesIn_of_mem_tokenize ht
    exact ⟨hlies.isBoundary_start, hlies.isBoundary_stop, hlies.slice?_eq, hlies.lineRange_lt⟩
  regexes _ rest _ := regexIsCut rest
  statements i hi := by
    obtain ⟨-, t, -, -, -, ht⟩ := StatementSearch.getElem?_of_mem_statementStarts hi
    exact ⟨t, ht⟩
  depth hbrackets before t after b htokens hclosing := by
    refine ⟨?_, StatementSearch.depth_pos_of_closing hbrackets htokens hclosing⟩
    rw [htokens]
    exact StatementSearch.exists_statementStarts_append before (t :: after)
  error e he := by
    obtain ⟨before, after, hscript, hoffset⟩ := isBoundary_of_analyze_error he
    have hposition := LineIndex.positionOf_ofText_append before after
    rw [← hscript, ← hoffset] at hposition
    rw [hposition]
    exact h.isCarried hscript
  body := by
    rintro l rfl
    exact (Text.spells_body script).isCarried h
  lineLocations _ _ hline := (spells_lineLocation hline).isCarried h
  tokenLocations t ht := by
    rintro l rfl
    exact (liesIn_of_mem_tokenize ht).spells.isCarried h

-- ---------------------------------------------------------------------------
-- Documents
-- ---------------------------------------------------------------------------

/-- What a transaction ends with is no fault if the harvest has none. -/
theorem Harvest.Follows.ne_fault {σ : Type} [FactStore σ] {g : Harvest} {path : Text}
    {kind : TopLevelKind} {work : EStateM ExtractionFailure (Sink (Draft σ)) LineTotals}
    (h : g.Follows work path kind) {source : Source} (hg : g.IsSettled source) (s : Sink σ)
    (f : Fault) : resultOf (Sink.transaction .write work s) ≠ .error (.fault f) := by
  rcases hg with ⟨totals, hok⟩ | ⟨e, hparse⟩
  · obtain ⟨notes, hrun⟩ := h.delivers hok s
    rw [hrun]
    cases FactStore.writeAll (g.facts path kind s.lastLabel) s.store <;> exact fun hf => by cases hf
  · obtain ⟨notes, hrun⟩ := h.refuses hparse s
    rw [hrun]
    exact fun hf => by cases hf

/-- The steps that are taken for one block of a document. -/
structure BlockIsSafe (options : AnalysisOptions) (d : Document) (b : Block) : Prop where
  /-- The content can be cut out. -/
  content : d.text.IsBoundary b.contentSpan.start ∧ d.text.IsBoundary b.contentSpan.stop ∧
    d.text.slice? b.contentSpan.start b.contentSpan.stop = some b.content
  /-- The anchor is in range, and the content is safe there. -/
  anchor : ∃ line, d.lineOf (b.breakBefore?.getD 0) = .ok line ∧
    line + Document.linesToContent < Position.bound ∧
    d.anchor b = .ok ⟨line + Document.linesToContent, 1⟩ ∧
    ScriptIsSafe options b.content ⟨⟨line + Document.linesToContent, 1⟩⟩

theorem exists_line_of_anchor {d : Document} {b : Block} {p : Position} (h : d.anchor b = .ok p) :
    ∃ line, d.lineOf (b.breakBefore?.getD 0) = .ok line ∧
      line + Document.linesToContent < Position.bound ∧ p = ⟨line + Document.linesToContent, 1⟩ := by
  rw [Document.anchor] at h
  cases hline : d.lineOf (b.breakBefore?.getD 0) with
  | error e =>
    rw [hline] at h
    cases h
  | ok line =>
    rw [hline] at h
    refine ⟨line, rfl, ?_⟩
    by_cases hlt : line + Document.linesToContent < Position.bound
    · have hsum := Position.sum_of_lt hlt
      simp only [hsum, bind, Except.bind, pure, Except.pure] at h
      exact ⟨hlt, (Except.ok.inj h).symm⟩
    · simp only [Position.sum, if_neg hlt, bind, Except.bind] at h
      cases h

theorem blockIsSafe_of_fits {d : Document} (hd : d.text.Fits) (options : AnalysisOptions)
    {b : Block} (hb : b ∈ d.scan.blocks) : BlockIsSafe options d b := by
  have hoccupies := occupies_of_mem_blocks hb
  obtain ⟨-, hstart, hstop, -⟩ := hoccupies.boundaries
  obtain ⟨before, opener, rest, hstands⟩ := Block.exists_standsIn hb
  obtain ⟨hanchor, hrange⟩ := hstands.of_fits hd
  obtain ⟨line, hline, hlt, hposition⟩ := exists_line_of_anchor hanchor
  have hsafe := scriptIsSafe_of_fitsBelow options hrange
  rw [hposition] at hanchor hsafe
  exact ⟨⟨hstart, hstop, hoccupies.content⟩, line, hline, hlt, hanchor, hsafe⟩

/-- In a document in range **no step is without an answer**: neither the
extraction as a whole, on any sink, nor any of the steps that it takes for its
blocks or, for a script file, for its text. -/
theorem extraction_is_safe {d : Document} (hd : d.text.Fits) (options : ExtractionOptions) :
    (∀ (σ : Type) [FactStore σ] (s : Sink σ) (f : Fault),
      resultOf (extractMarkdown options d s) ≠ .error (.fault f) ∧
      resultOf (extractScriptFile options d s) ≠ .error (.fault f)) ∧
    (∀ b ∈ d.scan.blocks, BlockIsSafe options.forBlocks.toAnalysisOptions d b) ∧
    ScriptIsSafe options.toAnalysisOptions d.text {} := by
  refine ⟨fun σ _ s f => ⟨?_, ?_⟩, fun b hb => blockIsSafe_of_fits hd _ hb,
    scriptIsSafe_of_fitsBelow (n := 0) _ hd.fitsBelow_zero⟩
  · exact (markdown_follows options d).ne_fault (Harvest.ofMarkdown_isSettled hd options) s f
  · exact (scriptFile_follows options d).ne_fault (Harvest.ofScriptFile_isSettled hd options) s f

/-- A block with a regular expression in brackets, then a declaration. -/
def bracketedRegex : Document :=
  ⟨⟨['m']⟩, ['\x60', '\x60', '\x60', 'j', 's', '\n', '\x7b', '/', 'é', '/', 'g', '\x7d', '\n',
    'l', 'e', 't', ' ', 'x', '\n', '\x60', '\x60', '\x60', '\n']⟩

/-- The second statement starts at the fourth significant token, one line below. -/
theorem extraction_is_safe_bracketedRegex :
    bracketedRegex.text.Fits ∧
    ∃ b, bracketedRegex.scan.blocks = [b] ∧ BlockIsSafe {} bracketedRegex b ∧
      statementStarts (tokenize b.content) = [0, 3] ∧
      (∃ t, (significant (tokenize b.content))[3]? = some t) ∧
      ∀ f, resultOf (extractMarkdown {} bracketedRegex { store := ({} : FactList) }) ≠
        .error (.fault f) := by
  have hfits : bracketedRegex.text.Fits := ⟨by decide, by unfold Text.ColumnsFit; decide⟩
  have hblocks : bracketedRegex.scan.blocks =
      [⟨['\x7b', '/', 'é', '/', 'g', '\x7d', '\n', 'l', 'e', 't', ' ', 'x', '\n'], 6, none,
        ⟨0, 24⟩, .js, ['j', 's']⟩] := by decide
  obtain ⟨hruns, hsafe, -⟩ := extraction_is_safe hfits {}
  have hblock := hsafe _ (hblocks ▸ List.mem_singleton_self _)
  obtain ⟨line, -, -, -, hscript⟩ := hblock.anchor
  have hstarts : statementStarts (tokenize ['\x7b', '/', 'é', '/', 'g', '\x7d', '\n', 'l', 'e', 't',
      ' ', 'x', '\n']) = [0, 3] := by
    decide +kernel
  refine ⟨hfits, _, hblocks, hblock, hstarts, ?_, fun f => (hruns FactList _ f).1⟩
  exact hscript.statements 3 (by rw [hstarts]; decide)

end FenceFacts
