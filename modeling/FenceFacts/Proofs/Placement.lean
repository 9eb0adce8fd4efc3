import FenceFacts.Proofs.Anchor
import FenceFacts.Proofs.Extraction

/-!
# FenceFacts — places of blocks

A position of a block is found in two ways: by the line index of the block,
carried over to the document by the translator that is anchored there; and by
the document itself, from the offset in the block and the offset the block
starts at.  The two agree, but for the block whose fence opens the document:
there the first one comes out one line too low.

So an error of a document is reported where the document has the character at
which its script was rejected.

## Results

* `block_position_agrees` — both ways, and where errors are reported.
-/

namespace FenceFacts

section Placement

variable {d : Document} {b : Block}

theorem Text.Fits.lines_add_overshoot_lt (hd : d.text.Fits) (b : Block) :
    d.text.lines.length + b.overshoot < Position.bound := by
  have hlines := hd.lines_lt
  have hovershoot : b.overshoot ≤ 1 := by
    unfold Block.overshoot
    split <;> omega
  omega

/-- In a document that is not too large a block has its anchor below the lines
before it, and its content stays in range there. -/
theorem Block.StandsIn.of_fits {before opener rest : Text}
    (h : b.StandsIn d.text before opener rest) (hd : d.text.Fits) :
    d.anchor b = .ok ⟨before.count '\n' + 1 + b.overshoot + 1, 1⟩ ∧
      b.content.FitsBelow (before.count '\n' + 1 + b.overshoot) := by
  have hlines := hd.lines_add_overshoot_lt b
  exact ⟨h.anchor_eq (by omega), h.fitsBelow hlines hd.columns_lt⟩

/-- A block of a document that is not too large has its anchor at the start of
a line. -/
theorem exists_anchor (hd : d.text.Fits) (hb : b ∈ d.scan.blocks) :
    ∃ line, d.anchor b = .ok ⟨line + 1, 1⟩ := by
  obtain ⟨before, opener, rest, hb⟩ := Block.exists_standsIn hb
  exact ⟨_, (hb.of_fits hd).1⟩

/-- The translator finds an offset of the block where the document has it, up
to the overshoot. -/
theorem exists_positionOf_of_isBoundary (hd : d.text.Fits) (hb : b ∈ d.scan.blocks)
    {anchor : Position} (hanchor : d.anchor b = .ok anchor) {offset : Nat}
    (hoffset : b.content.IsBoundary offset) :
    ∃ p, d.positionOf (b.start + offset) = .ok p ∧
      (Translator.mk anchor).translate ((LineIndex.ofText b.content).positionOf offset) =
        .ok (p.lowered b.overshoot) := by
  obtain ⟨before, opener, rest, hb⟩ := Block.exists_standsIn hb
  obtain ⟨x, y, hxy, rfl⟩ := hoffset
  rw [(hb.of_fits hd).1] at hanchor
  obtain rfl := Except.ok.inj hanchor
  refine ⟨_, hb.positionOf_content hxy, ?_⟩
  -- the index of the block reads the content, the document what is before it as well
  rw [show LineIndex.ofText b.content = .ofText (x ++ y) by rw [hxy],
    LineIndex.positionOf_ofText_append]
  exact hb.translate_content (hd.lines_add_overshoot_lt b) hd.columns_lt hxy

theorem exists_of_readBlock_parse {options : ExtractionOptions} (hd : d.text.Fits)
    (hb : b ∈ d.scan.blocks) {source : Source} {e : ParseError}
    (h : readBlock options d b = .error (.parse source e)) :
    source = d.source ∧ ∃ err p, analyze options.toAnalysisOptions b.content = .error err ∧
      d.positionOf (b.start + err.offset) = .ok p ∧
      e = ⟨err.cause.message, p.lowered b.overshoot⟩ := by
  obtain ⟨line, hanchor⟩ := exists_anchor hd hb
  rw [readBlock_eq hanchor] at h
  obtain ⟨hsource, err, herr, he⟩ := exists_of_readIn_parse h
  obtain ⟨p, hp, htranslate⟩ :=
    exists_positionOf_of_isBoundary hd hb hanchor (isBoundary_of_analyze_error herr)
  refine ⟨hsource, err, p, herr, hp, ?_⟩
  simp only [ScriptError.located, ParseError.translated, htranslate] at he
  exact (Except.ok.inj he).symm

end Placement

/-- The translator of a block finds every offset of it where **the document**
has it, one line lower if its fence opens the document, and an error of the
document is reported at the character at which the block was rejected. -/
theorem block_position_agrees {d : Document} (hd : d.text.Fits) :
    (∀ b ∈ d.scan.blocks, ∃ anchor, d.anchor b = .ok anchor ∧
      ∀ offset, b.content.IsBoundary offset →
        ∃ p, d.positionOf (b.start + offset) = .ok p ∧
          (Translator.mk anchor).translate ((LineIndex.ofText b.content).positionOf offset) =
            .ok (p.lowered b.overshoot)) ∧
    ∀ {σ : Type} [FactStore σ] (options : ExtractionOptions) (s s' : Sink σ) (source : Source)
      (e : ParseError), extractMarkdown options d s = .error (.parse source e) s' →
        source = d.source ∧ ∃ before b after err p,
          scriptBlocks d.scan.blocks = before ++ b :: after ∧
          (∀ c ∈ before, ∃ a, analyze options.forBlocks.toAnalysisOptions c.content = .ok a) ∧
          analyze options.forBlocks.toAnalysisOptions b.content = .error err ∧
          d.positionOf (b.start + err.offset) = .ok p ∧
          e = ⟨err.cause.message, p.lowered b.overshoot⟩ := by
  constructor
  · intro b hb
    obtain ⟨line, hanchor⟩ := exists_anchor hd hb
    exact ⟨_, hanchor, fun offset => exists_positionOf_of_isBoundary hd hb hanchor⟩
  · intro σ _ options s s' source e hrun
    obtain ⟨hresult, -, -⟩ := (markdown_follows options d).of_parse hrun
    obtain ⟨before, b, after, hbs, hbefore, hread⟩ := readings_of_parse hresult
    have hmem : b ∈ scriptBlocks d.scan.blocks := by
      rw [hbs]
      exact List.mem_append_right before List.mem_cons_self
    have hb : b ∈ d.scan.blocks := (mem_scriptBlocks.mp hmem).1
    obtain ⟨hsource, err, p, herr, hp, he⟩ := exists_of_readBlock_parse hd hb hread
    refine ⟨hsource, before, b, after, err, p, hbs, fun c hc => ?_, herr, hp, he⟩
    obtain ⟨r, hr⟩ := exists_reading_of_mem hbefore hc
    obtain ⟨anchor, a, -, ha, -⟩ := exists_of_readBlock_ok hr
    exact ⟨a, ha⟩

/-- A document with a bracket that is not closed. -/
def unclosedBracket : Document :=
  ⟨⟨"open.md".toList⟩, ['\u00e9', '\n', '\x60', '\x60', '\x60', 'j', 's', '\n', '(', '\n',
    '\x60', '\x60', '\x60', '\n']⟩

theorem block_position_agrees_unclosedBracket :
    (∃ s', extractMarkdown {} unclosedBracket ({ store := {} } : Sink FactList) =
      .error (.parse unclosedBracket.source ⟨"Unexpected end of input", ⟨4, 1⟩⟩) s') ∧
    ∃ b ∈ unclosedBracket.scan.blocks, ∃ err p, analyze {} b.content = .error err ∧
      unclosedBracket.positionOf (b.start + err.offset) = .ok p ∧ p.lowered b.overshoot = ⟨4, 1⟩ := by
  have hfits : unclosedBracket.text.Fits := ⟨by decide, by unfold Text.ColumnsFit; decide⟩
  have hresult : (Harvest.ofMarkdown {} unclosedBracket).result =
      .error (.parse unclosedBracket.source ⟨"Unexpected end of input", ⟨4, 1⟩⟩) := by
    decide +kernel
  obtain ⟨notes, hrun⟩ := (markdown_follows {} unclosedBracket).refuses hresult
    ({ store := {} } : Sink FactList)
  obtain ⟨-, before, b, after, err, p, hbs, -, herr, hp, he⟩ :=
    (block_position_agrees hfits).2 {} _ _ _ _ hrun
  refine ⟨⟨_, hrun⟩, b, ?_, err, p, herr, hp, ?_⟩
  · have hmem : b ∈ scriptBlocks unclosedBracket.scan.blocks := by
      rw [hbs]
      exact List.mem_append_right before List.mem_cons_self
    exact (mem_scriptBlocks.mp hmem).1
  · exact (congrArg ParseError.position he).symm

end FenceFacts
