import FenceFacts.Proofs.Anchor
import FenceFacts.Proofs.Extraction
import FenceFacts.Proofs.LineCounts

/-!
# FenceFacts — wrapped scripts

A script between a fence that opens a block and a fence that closes it, behind
a text that opens none, is the only block of the document they make.  It is
read there as it would be on its own: the same facts in the same order with
the same labels, or the same error, a fixed number of lines further down.

## Results

* `blocks_wrapped`        — the blocks of a wrapped script.
* `wrapped_script_agrees` — the two extractions do the same.
-/

namespace FenceFacts

-- ---------------------------------------------------------------------------
-- The block of a wrapped script
-- ---------------------------------------------------------------------------

/-- The fence line that opens the block. -/
def openingLine : Text := ['\x60', '\x60', '\x60', 'j', 's', '\n']

def closingLine : Text := ['\x60', '\x60', '\x60', '\n']

/-- The script in a block behind `before`. -/
def wrapped (before script : Text) : Text := before ++ (openingLine ++ (script ++ closingLine))

theorem ofLine?_openingLine : Fence.ofLine? openingLine = some ⟨['j', 's'], some .js⟩ := by decide

theorem ofLine?_closingLine : Fence.ofLine? closingLine = some ⟨[], none⟩ := by decide

/-- Only a line that starts with three backticks is a fence. -/
theorem ofLine?_eq_none_of_not_prefix {l : Text} (h : ¬ ['\x60', '\x60', '\x60'] <+: l) :
    Fence.ofLine? l = none := by
  unfold Fence.ofLine?
  split
  · next rest => exact absurd (List.prefix_append ['\x60', '\x60', '\x60'] rest) h
  · rfl

/-- What a wrapped script is made of. -/
structure Wraps (before script : Text) : Prop where
  before_terminated : before.isTerminated = true
  before_opens : ∀ l ∈ before.lines, ¬ OpensBlock l
  script_terminated : script.isTerminated = true
  script_fence : ∀ l ∈ script.lines, ¬ ['\x60', '\x60', '\x60'] <+: l

namespace Wraps

variable {before script : Text}

theorem lines_wrapped (h : Wraps before script) :
    (wrapped before script).lines =
      before.lines ++ openingLine :: (script.lines ++ closingLine :: []) := by
  rw [wrapped, Text.lines_append (Or.inr h.before_terminated),
    Text.lines_append (a := openingLine) (Or.inr rfl),
    Text.lines_append (Or.inr h.script_terminated)]
  rfl

theorem script_ne_nil (h : Wraps before script) : script ≠ [] := by
  rintro rfl
  exact absurd h.script_terminated (by decide)

theorem length_lines_lt (h : Wraps before script)
    (hlines : (wrapped before script).lines.length < Position.bound) :
    script.lines.length < LineTotals.bound := by
  have hbound : Position.bound < LineTotals.bound := by decide
  rw [h.lines_wrapped] at hlines
  simp only [List.length_append, List.length_cons] at hlines
  omega

def block (before script : Text) : Block :=
  Block.ofLines before.byteLength openingLine script.lines closingLine ['j', 's'] .js

theorem content_block (before script : Text) : (block before script).content = script :=
  Text.flatten_lines script

/-- The script is **the only block**. -/
theorem blocks_wrapped (h : Wraps before script) :
    (scanBlocks (wrapped before script)).blocks = [block before script] := by
  -- passed over up to the opening line, then one block, and nothing behind it
  have hskip := scanLines_none_append h.before_opens 0
    (spanLines (0 + Text.byteLength before.lines.flatten)
      (openingLine :: (script.lines ++ closingLine :: [])))
  have hbody : ∀ l ∈ script.lines, Fence.ofLine? l = none := fun l hl =>
    ofLine?_eq_none_of_not_prefix (h.script_fence l hl)
  rw [scanBlocks, spannedLines, h.lines_wrapped, spanLines_append, hskip,
    scanLines_opener rfl ofLine?_openingLine hbody ofLine?_closingLine, Text.flatten_lines,
    Nat.zero_add]
  rfl

theorem block_standsIn (h : Wraps before script) :
    (block before script).StandsIn (wrapped before script) before openingLine closingLine := by
  have hstands : (Block.ofLines _ openingLine script.lines closingLine ['j', 's'] .js).StandsIn
      (wrapped before script) before.lines.flatten openingLine _ :=
    Block.standsIn_ofLines h.lines_wrapped rfl ofLine?_closingLine
  rw [Text.flatten_lines, List.flatten_nil, List.append_nil] at hstands
  exact hstands

theorem overshoot_block (h : Wraps before script) : (block before script).overshoot = 0 := by
  rw [h.block_standsIn.overshoot_eq, if_neg]
  rintro rfl
  exact absurd h.before_terminated (by decide)

end Wraps

-- ---------------------------------------------------------------------------
-- Facts of a wrapped script
-- ---------------------------------------------------------------------------

/-- The fact as it is found in a block of another document, `n` lines down. -/
def Fact.moved (path : Text) (n : Nat) : Fact → Fact
  | .file label _ => .file label path
  | .topLevel label source _ isModule location =>
    .topLevel label source .inlineScript isModule (location.lowered n)
  | .line label owner text terminator location =>
    .line label owner text terminator (location.lowered n)
  | .comment label owner text location => .comment label owner text (location.lowered n)
  | .declaration label owner binding name kind location =>
    .declaration label owner binding name kind (location.lowered n)

namespace Ledger

variable (l : Ledger) (path : Text) (n : Nat)

theorem record_lowered (f : Finding) : l.record (f.lowered n) = l.record f := rfl

theorem factOf_lowered (topLevel : Label) (f : Finding) :
    l.factOf topLevel (f.lowered n) = (l.factOf topLevel f).moved path n := by
  obtain ⟨item, location⟩ := f
  cases item <;> rfl

theorem recordAll_lowered (fs : List Finding) :
    l.recordAll (fs.map (·.lowered n)) = l.recordAll fs :=
  recordAll_map (fun l f => l.record_lowered n f) l fs

theorem factsOf_lowered (topLevel : Label) (fs : List Finding) :
    l.factsOf topLevel (fs.map (·.lowered n)) = (l.factsOf topLevel fs).map (·.moved path n) :=
  factsOf_map (fun l f => l.record_lowered n f)
    (fun l f => l.factOf_lowered path n topLevel f) l fs

theorem readingFacts_lowered (file : Label) (kind : TopLevelKind) (r : Reading) :
    l.readingFacts file .inlineScript (r.lowered n) =
      (l.readingFacts file kind r).map (·.moved path n) := by
  rw [readingFacts, readingFacts, List.map_cons]
  exact congrArg (_ :: ·) (factsOf_lowered l.spend path n l.next r.members)

end Ledger

theorem Harvest.facts_single_lowered (r : Reading) (path path' : Text) (n last : Nat) :
    (single (.ok (r.lowered n))).facts path .inlineScript last =
      ((single (.ok r)).facts path' .script last).map (·.moved path n) := by
  unfold facts single
  rw [Ledger.readingsFacts_singleton, Ledger.readingsFacts_singleton,
    Ledger.readingFacts_lowered _ path n _ .script]
  rfl

theorem Harvest.lastLabel_single_lowered (r : Reading) (n last : Nat) :
    (single (.ok (r.lowered n))).lastLabel last = (single (.ok r)).lastLabel last :=
  congrArg Ledger.lastLabel (Ledger.recordAll_lowered (ledger last).spend n r.members)

-- ---------------------------------------------------------------------------
-- Both extractions
-- ---------------------------------------------------------------------------

section Agreement

variable {before script : Text}

theorem Wraps.fitsBelow (h : Wraps before script)
    (hlines : (wrapped before script).lines.length < Position.bound)
    (hcolumns : (wrapped before script).ColumnsFit) :
    script.FitsBelow (before.count '\n' + 1) := by
  have hfits := Block.StandsIn.fitsBelow (d := ⟨⟨[]⟩, wrapped before script⟩) h.block_standsIn
    (by rw [h.overshoot_block]; exact hlines) hcolumns
  rw [content_block, h.overshoot_block] at hfits
  exact hfits

/-- The script is read in its block as it is read on its own, further down. -/
theorem Wraps.readBlock_eq (h : Wraps before script)
    (hlines : (wrapped before script).lines.length < Position.bound) (options : ExtractionOptions)
    (source : Source) :
    readBlock options ⟨source, wrapped before script⟩ (block before script) =
      readIn source options script ⟨⟨before.count '\n' + 1 + 1, 1⟩⟩ := by
  have hanchor := Block.StandsIn.anchor_eq (d := ⟨source, wrapped before script⟩) h.block_standsIn
    hlines
  rw [FenceFacts.readBlock_eq hanchor, content_block, h.overshoot_block]

/-- The harvest of the document is the harvest of its block. -/
theorem Wraps.ofMarkdown_eq (h : Wraps before script) (hblank : ¬ script.isBlank = true)
    (hlines : (wrapped before script).lines.length < Position.bound)
    {options : ExtractionOptions} (hauto : options.sourceType = .auto) (source : Source) :
    Harvest.ofMarkdown options ⟨source, wrapped before script⟩ =
      .single (readIn source options script ⟨⟨before.count '\n' + 1 + 1, 1⟩⟩) := by
  have hoptions : options.forBlocks = options := by
    obtain ⟨⟨ecmaVersion, sourceType⟩, extractLines⟩ := options
    obtain rfl : sourceType = .auto := hauto
    rfl
  have hblank' : ¬ (block before script).isBlank = true := by
    rw [Block.isBlank, content_block]
    exact hblank
  have hread := h.readBlock_eq hlines options source
  rw [Harvest.ofMarkdown, hoptions, Document.scan, h.blocks_wrapped]
  cases hr : readIn source options script ⟨⟨before.count '\n' + 1 + 1, 1⟩⟩ with
  | error e => exact readBlocks_of_error hblank' (hread.trans hr) []
  | ok r =>
    have hadd : LineTotals.add {} r.lines = .ok r.lines := by
      obtain ⟨tokens, hlinesOf⟩ := exists_lines_of_readIn_ok hr
      rw [hlinesOf]
      exact (within_countLines h.script_ne_nil tokens).zero_add (h.length_lines_lt hlines)
    exact readBlocks_of_ok hblank' (hread.trans hr) hadd []

/-- A script that is wrapped in a Markdown document is extracted **as it is on
its own**: the same totals, the same facts under the same labels and below the
path of the document, each as many lines further down as there are line feeds
before the script; or the same error, as much further down. -/
theorem wrapped_script_agrees (h : Wraps before script) (hblank : ¬ script.isBlank = true)
    (hlines : (wrapped before script).lines.length < Position.bound)
    (hcolumns : (wrapped before script).ColumnsFit) (options : ExtractionOptions)
    (hauto : options.sourceType = .auto) (source source' : Source) {σ : Type} [FactStore σ]
    (s : Sink σ) :
    (∃ totals facts last, (∀ f ∈ facts, f.IsFrom source'.path .script) ∧
      Delivers (extractScriptFile options ⟨source', script⟩) s totals facts last ∧
      Delivers (extractMarkdown options ⟨source, wrapped before script⟩) s totals
        (facts.map (·.moved source.path (before.count '\n' + 1))) last) ∨
    ∃ message position last,
      Refuses (extractScriptFile options ⟨source', script⟩) s
        (.parse source' ⟨message, position⟩) last ∧
      Refuses (extractMarkdown options ⟨source, wrapped before script⟩) s
        (.parse source ⟨message, position.lowered (before.count '\n' + 1)⟩) last := by
  have hfits := h.fitsBelow hlines hcolumns
  -- both extractions follow a harvest of the one script, in range where it is and further down
  have hmarkdown := markdown_follows (σ := Draft σ) options ⟨source, wrapped before script⟩
  have hscript := scriptFile_follows (σ := Draft σ) options ⟨source', script⟩
  rw [h.ofMarkdown_eq hblank hlines hauto, readIn_of_fitsBelow hfits] at hmarkdown
  rw [Harvest.ofScriptFile, show ({} : Translator) = ⟨⟨0 + 1, 1⟩⟩ from rfl,
    readIn_of_fitsBelow (hfits.mono (Nat.zero_le _))] at hscript
  cases ha : analyze options.toAnalysisOptions script with
  | error err =>
    right
    rw [ha] at hmarkdown hscript
    exact ⟨_, _, _, hscript.refuses rfl s, hmarkdown.refuses rfl s⟩
  | ok a =>
    left
    rw [ha] at hmarkdown hscript
    simp only [Reading.lowered_zero] at hscript
    refine ⟨_, _, _, fun f hf => Harvest.isFrom_of_mem_facts hf, hscript.delivers rfl s, ?_⟩
    have hdelivers := hmarkdown.delivers rfl s
    rw [Harvest.facts_single_lowered _ _ source'.path, Harvest.lastLabel_single_lowered]
      at hdelivers
    exact hdelivers

end Agreement

/-- A block in another language. -/
def foreignBlock : Text :=
  ['\x60', '\x60', '\x60', 'c', '\n', 'j', '\n', '\x60', '\x60', '\x60', '\n']

theorem wrapped_script_agrees_behind_foreignBlock :
    ∃ totals facts last,
      Delivers (extractScriptFile {} ⟨⟨['a']⟩, ['x', ';', '\n']⟩)
        (⟨{}, 7, []⟩ : Sink FactList) totals facts last ∧
      Delivers (extractMarkdown {} ⟨⟨['b']⟩, wrapped foreignBlock ['x', ';', '\n']⟩)
        (⟨{}, 7, []⟩ : Sink FactList) totals (facts.map (·.moved ['b'] 4)) last := by
  have hwraps : Wraps foreignBlock ['x', ';', '\n'] := ⟨rfl, by decide, rfl, by decide⟩
  have hcolumns : (wrapped foreignBlock ['x', ';', '\n']).ColumnsFit := by
    unfold Text.ColumnsFit
    decide
  have hresult : (Harvest.ofScriptFile {} ⟨⟨['a']⟩, ['x', ';', '\n']⟩).result = .ok ⟨1, 0⟩ := by
    decide +kernel
  rcases wrapped_script_agrees hwraps (by decide) (by decide) hcolumns {} rfl
    ⟨['b']⟩ ⟨['a']⟩ (⟨{}, 7, []⟩ : Sink FactList) with
    ⟨totals, facts, last, -, hscript, hmarkdown⟩ | ⟨message, position, last, hrefuses, -⟩
  · exact ⟨totals, facts, last, hscript, hmarkdown⟩
  · obtain ⟨notes, hrun⟩ := hrefuses
    obtain ⟨notes', hrun'⟩ := (scriptFile_follows {} ⟨⟨['a']⟩, ['x', ';', '\n']⟩).delivers hresult
      (⟨{}, 7, []⟩ : Sink FactList)
    rw [FactStore.writeAll_factList] at hrun'
    cases hrun.symm.trans hrun'

end FenceFacts
