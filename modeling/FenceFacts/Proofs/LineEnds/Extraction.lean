import FenceFacts.Proofs.LineEnds.Reading
import FenceFacts.Proofs.Pairing
import FenceFacts.Proofs.Range

/-!
# FenceFacts — documents with two kinds of line ends

A document can be written with line feeds or with carriage returns before all
of them, and it is extracted in the same way.  Line by line the same fences
open and close the same blocks; a block is anchored at the same line and read
as the same script; and the facts that are recorded are the same, but for the
terminators of lines and the line ends inside comments.

## Results

* `forall₂_blocks_crlf`    — block by block.
* `readBlock_crlf`         — a block is read as it is otherwise.
* `crlf_extraction_agrees` — Markdown documents and script files.
-/

namespace FenceFacts

open Text

/-- The document with a carriage return before every line feed. -/
def Document.crlf (d : Document) : Document := { d with text := d.text.crlf }

-- ---------------------------------------------------------------------------
-- Fences
-- ---------------------------------------------------------------------------

section Lines

variable {l : Text}

theorem isFenceLine_crlf (l : Text) : isFenceLine l.crlf = isFenceLine l := by
  rw [Bool.eq_iff_iff, isFenceLine_iff, isFenceLine_iff]
  constructor
  · rintro ⟨rest, hrest⟩
    obtain ⟨l₁, rfl, h₁⟩ := exists_of_crlf_eq_cons hrest (by decide)
    obtain ⟨l₂, rfl, h₂⟩ := exists_of_crlf_eq_cons h₁.symm (by decide)
    obtain ⟨l₃, rfl, -⟩ := exists_of_crlf_eq_cons h₂.symm (by decide)
    exact ⟨l₃, rfl⟩
  · rintro ⟨rest, rfl⟩
    exact ⟨Text.crlf rest, rfl⟩

theorem ofLine?_crlf (h : '\n' ∉ l.withoutTerminator) :
    Fence.ofLine? l.crlf = Fence.ofLine? l := by
  by_cases hfence : isFenceLine l = true
  · obtain ⟨rest, rfl⟩ := isFenceLine_iff.mp hfence
    have hbacktick (t : Text) : withoutTerminator ('\x60' :: t) = '\x60' :: t.withoutTerminator :=
      withoutTerminator_cons (by decide) t
    rw [hbacktick, hbacktick, hbacktick] at h
    have hinfo : withoutTerminator (Text.crlf rest) = withoutTerminator rest := by
      rw [withoutTerminator_crlf, crlf_of_not_mem]
      intro hmem
      exact h (List.mem_cons_of_mem _ (List.mem_cons_of_mem _ (List.mem_cons_of_mem _ hmem)))
    have hcrlf : Text.crlf ('\x60' :: '\x60' :: '\x60' :: rest) =
        '\x60' :: '\x60' :: '\x60' :: Text.crlf rest := rfl
    rw [hcrlf, ofLine?_backticks, ofLine?_backticks, hinfo]
  · rw [Bool.not_eq_true] at hfence
    rw [ofLine?_eq_none_iff.mpr hfence,
      ofLine?_eq_none_iff.mpr ((isFenceLine_crlf l).trans hfence)]

theorem opensBlock_crlf (h : '\n' ∉ l.withoutTerminator) : OpensBlock l.crlf ↔ OpensBlock l := by
  rw [OpensBlock, OpensBlock, isTerminated_crlf, ofLine?_crlf h]

end Lines

-- ---------------------------------------------------------------------------
-- Blocks
-- ---------------------------------------------------------------------------

/-- The second block is the first one as it stands in the text with carriage
returns: its content has them, and behind the same text it has its own place. -/
structure Block.Rewritten (t : Text) (b b' : Block) : Prop where
  content_eq : b'.content = b.content.crlf
  standsIn : ∃ before opener rest opener' rest',
    b.StandsIn t before opener rest ∧ b'.StandsIn t.crlf before.crlf opener' rest'

/-- The same lines of both texts make the same block. -/
theorem Block.rewritten_ofLines {t opener closer info : Text} {pre body post : List Text}
    {tag : ScriptTag} {f : Fence} (h : t.lines = pre ++ opener :: (body ++ closer :: post))
    (hterm : opener.isTerminated = true) (hcloser : Fence.ofLine? closer = some f) :
    (Block.ofLines (byteLength pre.flatten) opener body closer info tag).Rewritten t
      (Block.ofLines (byteLength (pre.map Text.crlf).flatten) opener.crlf (body.map Text.crlf)
        closer.crlf info tag) := by
  have hlines : t.crlf.lines = pre.map Text.crlf ++
      opener.crlf :: (body.map Text.crlf ++ closer.crlf :: post.map Text.crlf) := by
    rw [lines_crlf, h]
    simp only [List.map_append, List.map_cons]
  have hclosing : '\n' ∉ closer.withoutTerminator := by
    refine not_mem_withoutTerminator (t := t) ?_
    rw [h]
    simp
  have hstands : (Block.ofLines _ opener body closer info tag).StandsIn t pre.flatten opener _ :=
    Block.standsIn_ofLines h hterm hcloser
  have hstands' : (Block.ofLines _ opener.crlf (body.map Text.crlf) closer.crlf info
      tag).StandsIn t.crlf (pre.map Text.crlf).flatten opener.crlf _ :=
    Block.standsIn_ofLines hlines ((isTerminated_crlf opener).trans hterm)
      ((ofLine?_crlf hclosing).trans hcloser)
  refine ⟨(crlf_flatten body).symm, ?_⟩
  rw [← crlf_flatten pre] at hstands' ⊢
  exact ⟨_, _, _, _, _, hstands, hstands'⟩

/-- Both texts have the same blocks, **one by one**, from any line on. -/
theorem forall₂_blocks_crlf {t : Text} {pre ls : List Text} (h : t.lines = pre ++ ls) :
    List.Forall₂ (Block.Rewritten t)
      (scanLines none (spanLines (byteLength pre.flatten) ls)).blocks
      (scanLines none
        (spanLines (byteLength (pre.map Text.crlf).flatten) (ls.map Text.crlf))).blocks := by
  have hmem {l : Text} (hl : l ∈ ls) : '\n' ∉ l.withoutTerminator := by
    refine not_mem_withoutTerminator (t := t) ?_
    rw [h]
    exact List.mem_append_right pre hl
  induction ls using scan_induction generalizing pre with
  | nil => exact List.Forall₂.nil
  | skip l ls hopens ih =>
    have hopens' := mt (opensBlock_crlf (hmem List.mem_cons_self)).mp hopens
    rw [List.map_cons, scanLines_none_cons hopens, scanLines_none_cons hopens']
    have hlines : t.lines = (pre ++ [l]) ++ ls := by
      rw [h, List.append_assoc]
      rfl
    have hls := ih hlines fun hl => hmem (List.mem_cons_of_mem l hl)
    simp only [List.map_append, List.map_cons, List.map_nil, List.flatten_append,
      List.flatten_cons, List.flatten_nil, List.append_nil, byteLength_append] at hls
    exact hls
  | unclosed opener body hopens hbody =>
    obtain ⟨hterm, info, tag, hopener⟩ := hopens
    have hfence := (ofLine?_crlf (hmem List.mem_cons_self)).trans hopener
    have hbody' := fun l hl => (ofLine?_crlf (hmem (List.mem_cons_of_mem _ hl))).trans (hbody l hl)
    rw [List.map_cons, scanLines_opener_unclosed hterm hopener hbody,
      scanLines_opener_unclosed ((isTerminated_crlf opener).trans hterm) hfence
        (List.forall_mem_map.mpr hbody')]
    exact List.Forall₂.nil
  | block opener body closer post hopens hbody hcloser ih =>
    obtain ⟨hterm, info, tag, hopener⟩ := hopens
    obtain ⟨f, hcloser⟩ := Option.isSome_iff_exists.mp hcloser
    have hfence := (ofLine?_crlf (hmem List.mem_cons_self)).trans hopener
    have hterm' := (isTerminated_crlf opener).trans hterm
    have hbody' : ∀ l ∈ body, Fence.ofLine? l.crlf = none := fun l hl =>
      (ofLine?_crlf (hmem (by simp [hl]))).trans (hbody l hl)
    have hcloser' := (ofLine?_crlf (hmem (by simp))).trans hcloser
    rw [List.map_cons, List.map_append, List.map_cons,
      scanLines_opener hterm hopener hbody hcloser,
      scanLines_opener hterm' hfence (List.forall_mem_map.mpr hbody') hcloser']
    refine List.Forall₂.cons (Block.rewritten_ofLines h hterm hcloser) ?_
    -- behind the closing line the scans go on, each at an offset of its own
    have hbehind : t.lines = (pre ++ opener :: (body ++ [closer])) ++ post := by
      rw [h]
      simp only [List.append_assoc, List.cons_append, List.nil_append]
    have hpost := ih hbehind fun hl => hmem (by simp [hl])
    simp only [List.map_append, List.map_cons, List.map_nil, List.flatten_append,
      List.flatten_cons, List.flatten_nil, List.append_nil, byteLength_append,
      ← Nat.add_assoc] at hpost
    exact hpost

section Blocks

variable {d : Document} {b b' : Block}

/-- A block has **the same anchor** in both documents. -/
theorem Block.Rewritten.anchor_crlf (h : b.Rewritten d.text b') (hd : d.text.Fits) :
    ∃ anchor, d.anchor b = .ok anchor ∧ d.crlf.anchor b' = .ok anchor := by
  obtain ⟨before, opener, rest, opener', rest', hb, hb'⟩ := h.standsIn
  have hlines : d.text.lines.length < Position.bound := by
    have := hd.lines_lt
    omega
  have hlines' : d.text.crlf.lines.length < Position.bound := by
    rw [lines_crlf, List.length_map]
    exact hlines
  have hovershoot : b'.overshoot = b.overshoot := by
    rw [hb.overshoot_eq, hb'.overshoot_eq]
    simp only [crlf_eq_nil_iff]
  have hanchor := Block.StandsIn.anchor_eq (d := d.crlf) hb' hlines'
  rw [count_crlf, hovershoot] at hanchor
  exact ⟨_, hb.anchor_eq hlines, hanchor⟩

theorem Block.Rewritten.isBlank_crlf (h : b.Rewritten d.text b') : b'.isBlank = b.isBlank := by
  rw [Block.isBlank, Block.isBlank, h.content_eq, Text.isBlank_crlf]

theorem Block.Rewritten.carriageReturn_not_mem (h : b.Rewritten d.text b')
    (hcr : '\r' ∉ d.text) : '\r' ∉ b.content := by
  obtain ⟨before, opener, rest, opener', rest', hb, -⟩ := h.standsIn
  intro hmem
  refine hcr ?_
  rw [hb.text_eq]
  exact List.mem_append_right _ (List.mem_append_right _ (List.mem_append_left _ hmem))

/-- A block is read **as it is otherwise**. -/
theorem readBlock_crlf (h : b.Rewritten d.text b') (hcr : '\r' ∉ d.text) (hd : d.text.Fits)
    (options : ExtractionOptions) :
    readBlock options d.crlf b' = (readBlock options d b).map Reading.crlf := by
  obtain ⟨anchor, hanchor, hanchor'⟩ := h.anchor_crlf hd
  rw [readBlock_eq hanchor, readBlock_eq hanchor', h.content_eq,
    readIn_crlf (h.carriageReturn_not_mem hcr)]
  rfl

end Blocks

-- ---------------------------------------------------------------------------
-- Harvests
-- ---------------------------------------------------------------------------

def Harvest.crlf (g : Harvest) : Harvest := { g with readings := g.readings.map Reading.crlf }

section Harvests

variable {d : Document}

theorem readBlocks_crlf (hcr : '\r' ∉ d.text) (hd : d.text.Fits) (options : ExtractionOptions)
    {bs bs' : List Block} (h : List.Forall₂ (Block.Rewritten d.text) bs bs')
    (totals : LineTotals) :
    readBlocks options d.crlf totals bs' = (readBlocks options d totals bs).crlf := by
  induction h generalizing totals with
  | nil => rfl
  | @cons b b' bs bs' hb _ ih =>
    have hread' := readBlock_crlf hb hcr hd options
    by_cases hblank : b.isBlank = true
    · rw [readBlocks_of_blank hblank, readBlocks_of_blank (hb.isBlank_crlf.trans hblank), ih]
    · have hblank' : ¬ b'.isBlank = true := by rwa [hb.isBlank_crlf]
      cases hread : readBlock options d b with
      | error e =>
        rw [hread] at hread'
        rw [readBlocks_of_error hblank hread, readBlocks_of_error hblank' hread']
        rfl
      | ok r =>
        rw [hread] at hread'
        cases hadd : totals.add r.lines with
        | error e =>
          rw [readBlocks_of_overflow hblank hread hadd,
            readBlocks_of_overflow hblank' hread' hadd]
          rfl
        | ok totals' =>
          rw [readBlocks_of_ok hblank hread hadd, readBlocks_of_ok hblank' hread' hadd, ih]
          rfl

namespace Harvest

theorem ofMarkdown_crlf (hcr : '\r' ∉ d.text) (hd : d.text.Fits) (options : ExtractionOptions) :
    ofMarkdown options d.crlf = (ofMarkdown options d).crlf := by
  have hblocks : List.Forall₂ (Block.Rewritten d.text) d.scan.blocks d.crlf.scan.blocks := by
    have h := forall₂_blocks_crlf (List.nil_append d.text.lines).symm
    rw [← lines_crlf] at h
    exact h
  exact readBlocks_crlf hcr hd _ hblocks {}

theorem ofScriptFile_crlf (hcr : '\r' ∉ d.text) (options : ExtractionOptions) :
    ofScriptFile options d.crlf = (ofScriptFile options d).crlf := by
  have hread := readIn_crlf hcr d.source options {}
  show single (readIn d.source options d.text.crlf {}) = _
  rw [hread, ofScriptFile]
  cases readIn d.source options d.text {} <;> rfl

variable (g : Harvest)

theorem facts_crlf (path : Text) (kind : TopLevelKind) (last : Nat) :
    g.crlf.facts path kind last = (g.facts path kind last).map Fact.crlf :=
  congrArg (Fact.file ⟨last + 1⟩ path :: ·)
    ((ledger last).readingsFacts_crlf ⟨last + 1⟩ kind g.readings)

theorem lastLabel_crlf (last : Nat) : g.crlf.lastLabel last = g.lastLabel last :=
  congrArg Ledger.lastLabel ((ledger last).recordReadings_crlf g.readings)

end Harvest

end Harvests

-- ---------------------------------------------------------------------------
-- Both extractions
-- ---------------------------------------------------------------------------

section Agreement

variable {σ : Type} [FactStore σ]

/-- From the sink `s` both extractions have the same answer, and the second
one hands the facts of the first one to the store as they are with carriage
returns; or both report the same error in a script of the source. -/
def AgreeUpToLineEnds (extraction extraction' : EStateM ExtractionFailure (Sink σ) LineTotals)
    (source : Source) (s : Sink σ) : Prop :=
  (∃ totals facts last, Delivers extraction s totals facts last ∧
    Delivers extraction' s totals (facts.map Fact.crlf) last) ∨
  ∃ e last, Refuses extraction s (.parse source e) last ∧
    Refuses extraction' s (.parse source e) last

theorem agreeUpToLineEnds_of_follows {g : Harvest} {source : Source} (hg : g.IsSettled source)
    {work work' : EStateM ExtractionFailure (Sink (Draft σ)) LineTotals} {path : Text}
    {kind : TopLevelKind} (h : g.Follows work path kind) (h' : g.crlf.Follows work' path kind)
    (s : Sink σ) :
    AgreeUpToLineEnds (Sink.transaction .write work) (Sink.transaction .write work') source s := by
  rcases hg with ⟨totals, hresult⟩ | ⟨e, hresult⟩
  · left
    have hdelivers' := h'.delivers hresult s
    rw [Harvest.facts_crlf, Harvest.lastLabel_crlf] at hdelivers'
    exact ⟨totals, _, _, h.delivers hresult s, hdelivers'⟩
  · right
    have hrefuses' := h'.refuses hresult s
    rw [Harvest.lastLabel_crlf] at hrefuses'
    exact ⟨e, _, h.refuses hresult s, hrefuses'⟩

/-- A document without carriage returns is extracted **in the same way** when
it is written with one before every line feed: with the same answer and the
same facts, labels and locations included, but for the terminators of lines
and the line ends inside comments; or with the same error at the same
position. -/
theorem crlf_extraction_agrees {d : Document} (hcr : '\r' ∉ d.text) (hd : d.text.Fits)
    (options : ExtractionOptions) (s : Sink σ) :
    AgreeUpToLineEnds (extractMarkdown options d) (extractMarkdown options d.crlf) d.source s ∧
      AgreeUpToLineEnds (extractScriptFile options d) (extractScriptFile options d.crlf)
        d.source s := by
  have hmarkdown := markdown_follows (σ := Draft σ) options d.crlf
  have hscript := scriptFile_follows (σ := Draft σ) options d.crlf
  rw [Harvest.ofMarkdown_crlf hcr hd] at hmarkdown
  rw [Harvest.ofScriptFile_crlf hcr] at hscript
  exact ⟨agreeUpToLineEnds_of_follows (Harvest.ofMarkdown_isSettled hd options)
      (markdown_follows options d) hmarkdown s,
    agreeUpToLineEnds_of_follows (Harvest.ofScriptFile_isSettled hd options)
      (scriptFile_follows options d) hscript s⟩

end Agreement

/-- A document with a comment over two lines. -/
def wideComment : Document :=
  ⟨⟨"wide.md".toList⟩, ['\x60', '\x60', '\x60', 'j', 's', '\n', '/', '*', '\n', '*', '/', 'x', '\n',
    '\x60', '\x60', '\x60', '\n']⟩

theorem crlf_extraction_agrees_wideComment :
    ∃ totals facts last,
      Delivers (extractMarkdown {} wideComment) ({ store := {} } : Sink FactList) totals facts
        last ∧
      Delivers (extractMarkdown {} wideComment.crlf) ({ store := {} } : Sink FactList) totals
        (facts.map Fact.crlf) last ∧
      facts.map Fact.crlf ≠ facts := by
  have hfits : wideComment.text.Fits := ⟨by decide, by unfold Text.ColumnsFit; decide⟩
  have hresult : (Harvest.ofMarkdown {} wideComment).result = .ok ⟨1, 2⟩ := by decide +kernel
  obtain ⟨notes, hrun⟩ := (markdown_follows {} wideComment).delivers hresult
    ({ store := {} } : Sink FactList)
  rw [FactStore.writeAll_factList] at hrun
  rcases (crlf_extraction_agrees (by decide) hfits {} ({ store := {} } : Sink FactList)).1 with
    ⟨totals, facts, last, hdelivers, hdelivers'⟩ | ⟨e, last, hrefuses, -⟩
  · obtain ⟨notes', hrun'⟩ := hdelivers
    rw [FactStore.writeAll_factList] at hrun'
    -- the facts are those of the harvest, which can be computed
    injection hrun.symm.trans hrun' with _ hsink
    have hfacts : (Harvest.ofMarkdown {} wideComment).facts _ _ 0 = facts :=
      congrArg (·.store.facts) hsink
    refine ⟨totals, facts, last, ⟨notes', ?_⟩, hdelivers', ?_⟩
    · rw [FactStore.writeAll_factList]
      exact hrun'
    · rw [← hfacts]
      decide +kernel
  · obtain ⟨notes', hrun'⟩ := hrefuses
    cases hrun.symm.trans hrun'

end FenceFacts
