import FenceFacts.Proofs.Accounting
import FenceFacts.Proofs.Extraction

/-!
# FenceFacts — documents as transactions

A document is extracted on a draft.  Seen from a store that takes every fact,
all of its facts arrive or none does: an accepted document leaves there what
its extraction would have written had it worked on the store itself, and a
rejected one leaves nothing.  The labels that were handed out are spent in
both cases, and how many they are is told by the scripts that were read: all
of them, or those before the first that is rejected.

## Results

* `commitsDirect_of_follows` — an accepted document.
* `extraction_is_atomic`     — Markdown documents and script files.
-/

namespace FenceFacts

-- ---------------------------------------------------------------------------
-- With and without a draft
-- ---------------------------------------------------------------------------

abbrev Extraction :=
  ∀ (σ : Type) [FactStore σ], EStateM ExtractionFailure (Sink σ) LineTotals

/-- Between the two sinks the store has got the facts that the direct run
emits, there as well as in memory, and the same labels are spent. -/
def CommitsDirect (direct : Extraction) {σ : Type} [FactStore σ] (s s' : Sink σ)
    (totals : LineTotals) : Prop :=
  ∃ facts,
    FactStore.writeAll facts s.store = .ok () s'.store ∧
    (∃ notes, direct σ s = .ok totals ⟨s'.store, s'.lastLabel, notes⟩) ∧
    ∀ old : List Fact, ∃ notes, direct FactList ⟨⟨old⟩, s.lastLabel, []⟩ =
      .ok totals ⟨⟨old ++ facts⟩, s'.lastLabel, notes⟩

section Direct

variable {σ : Type} [FactStore σ] {direct : Extraction} {g : Harvest} {path : Text}
  {kind : TopLevelKind} {s s' : Sink σ} {totals : LineTotals}

theorem exists_run_of_follows (hfollows : g.Follows (direct σ) path kind)
    (hresult : g.result = .ok totals) (hs : FactStore.TakesAll s.store) :
    ∃ s', direct σ s = .ok totals s' ∧ s'.lastLabel = g.lastLabel s.lastLabel ∧
      FactStore.writeAll (g.facts path kind s.lastLabel) s.store = .ok () s'.store := by
  have hrun := hfollows s.lastLabel
  rw [hresult] at hrun
  exact hrun.of_takesAll hs rfl

/-- An accepted document leaves in the store **what the direct run writes**. -/
theorem commitsDirect_of_follows
    (hfollows : ∀ (τ : Type) [FactStore τ], g.Follows (direct τ) path kind)
    (hs : FactStore.TakesAll s.store)
    (hrun : Sink.transaction .write (direct (Draft σ)) s = .ok totals s') :
    CommitsDirect direct s s' totals := by
  obtain ⟨hresult, hlast, hwrite⟩ := (hfollows (Draft σ)).of_ok hrun
  refine ⟨g.facts path kind s.lastLabel, hwrite, ?_, fun old => ?_⟩
  -- a direct run follows the same harvest, on whatever store it writes to
  · obtain ⟨⟨store, last, notes⟩, hdirect, hlast', hwrite'⟩ :=
      exists_run_of_follows (hfollows σ) hresult hs
    rw [hwrite] at hwrite'
    injection hwrite' with _ hstore
    dsimp only at hstore hlast'
    rw [hstore, hlast, ← hlast']
    exact ⟨notes, hdirect⟩
  · obtain ⟨⟨store, last, notes⟩, hdirect, hlast', hwrite'⟩ :=
      exists_run_of_follows (s := ⟨⟨old⟩, s.lastLabel, []⟩) (hfollows FactList) hresult
        (FactStore.takesAll_factList _)
    rw [FactStore.writeAll_factList] at hwrite'
    injection hwrite' with _ hstore
    dsimp only at hstore hlast'
    rw [hstore, hlast, ← hlast']
    exact ⟨notes, hdirect⟩

end Direct

-- ---------------------------------------------------------------------------
-- The scripts that were read
-- ---------------------------------------------------------------------------

theorem lastLabel_of_readBlocks {options : ExtractionOptions} {d : Document} {bs : List Block}
    {g : Harvest} (h : List.Forall₂ (fun b r => readBlock options d b = .ok r) bs g.readings)
    (last : Nat) :
    g.lastLabel last = last + labelsSpent options (bs.map (·.content)) := by
  refine Harvest.lastLabel_of_reads (List.forall₂_map_left_iff.mpr (h.imp fun b r hread => ?_)) last
  obtain ⟨anchor, -, hanchor, -⟩ := exists_of_readBlock_ok hread
  exact ⟨d.source, ⟨anchor⟩, (readBlock_eq hanchor).symm.trans hread⟩

theorem exists_analysis_of_readBlocks {options : ExtractionOptions} {d : Document}
    {bs : List Block} {rs : List Reading}
    (h : List.Forall₂ (fun b r => readBlock options d b = .ok r) bs rs) :
    ∀ b ∈ bs, ∃ a, analyze options.toAnalysisOptions b.content = .ok a := by
  intro b hb
  obtain ⟨r, hread⟩ := exists_reading_of_mem h hb
  obtain ⟨-, a, -, ha, -⟩ := exists_of_readBlock_ok hread
  exact ⟨a, ha⟩

/-- A block that is rejected in its document is rejected as a script. -/
theorem exists_error_of_readBlock_parse {options : ExtractionOptions} {d : Document} {b : Block}
    {source : Source} {e : ParseError} (h : readBlock options d b = .error (.parse source e)) :
    ∃ err, analyze options.toAnalysisOptions b.content = .error err := by
  cases hanchor : d.anchor b with
  | error f =>
    rw [readBlock, hanchor] at h
    cases h
  | ok anchor =>
    rw [readBlock_eq hanchor] at h
    obtain ⟨-, err, herr, -⟩ := exists_of_readIn_parse h
    exact ⟨err, herr⟩

-- ---------------------------------------------------------------------------
-- Documents
-- ---------------------------------------------------------------------------

/-- A Markdown document or a script file is extracted **in full or not at
all**, and its labels are spent either way: one for the file, and those of the
scripts before the first that is rejected. -/
theorem extraction_is_atomic {σ : Type} [FactStore σ] {s : Sink σ}
    (hs : FactStore.TakesAll s.store) (options : ExtractionOptions) (d : Document) (s' : Sink σ) :
    (∀ totals, extractMarkdown options d s = .ok totals s' →
      CommitsDirect (fun _ _ => extractMarkdownInto (extractScript options.forBlocks) d) s s'
        totals ∧
      (∀ b ∈ scriptBlocks d.scan.blocks,
        ∃ a, analyze options.forBlocks.toAnalysisOptions b.content = .ok a) ∧
      s'.lastLabel = s.lastLabel +
        labelsSpent options.forBlocks ((scriptBlocks d.scan.blocks).map (·.content))) ∧
    (∀ source e, extractMarkdown options d s = .error (.parse source e) s' →
      s'.store = s.store ∧
      ∃ before b after, scriptBlocks d.scan.blocks = before ++ b :: after ∧
        (∀ c ∈ before, ∃ a, analyze options.forBlocks.toAnalysisOptions c.content = .ok a) ∧
        (∃ err, analyze options.forBlocks.toAnalysisOptions b.content = .error err) ∧
        s'.lastLabel = s.lastLabel + labelsSpent options.forBlocks (before.map (·.content))) ∧
    (∀ totals, extractScriptFile options d s = .ok totals s' →
      CommitsDirect (fun _ _ => extractScriptInto options d) s s' totals ∧
      (∃ a, analyze options.toAnalysisOptions d.text = .ok a) ∧
      s'.lastLabel = s.lastLabel + labelsSpent options [d.text]) ∧
    ∀ source e, extractScriptFile options d s = .error (.parse source e) s' →
      s'.store = s.store ∧ (∃ err, analyze options.toAnalysisOptions d.text = .error err) ∧
      s'.lastLabel = s.lastLabel + 1 := by
  refine ⟨fun totals hrun => ?_, fun source e hrun => ?_, fun totals hrun => ?_,
    fun source e hrun => ?_⟩
  · obtain ⟨hresult, hlast, -⟩ := (markdown_follows options d).of_ok hrun
    have hread := readings_of_ok hresult
    refine ⟨commitsDirect_of_follows (fun τ _ => markdown_follows options d) hs hrun,
      exists_analysis_of_readBlocks hread, ?_⟩
    rw [hlast]
    exact lastLabel_of_readBlocks hread _
  · obtain ⟨hresult, hlast, hstore⟩ := (markdown_follows options d).of_parse hrun
    obtain ⟨before, b, after, hbs, hread, hrejected⟩ := readings_of_parse hresult
    refine ⟨hstore, before, b, after, hbs, exists_analysis_of_readBlocks hread,
      exists_error_of_readBlock_parse hrejected, ?_⟩
    rw [hlast]
    exact lastLabel_of_readBlocks hread _
  · obtain ⟨hresult, hlast, -⟩ := (scriptFile_follows options d).of_ok hrun
    obtain ⟨r, hread⟩ := Harvest.exists_of_single_ok hresult
    obtain ⟨a, ha, -⟩ := exists_of_readIn_ok hread
    refine ⟨commitsDirect_of_follows (fun τ _ => scriptFile_follows options d) hs hrun,
      ⟨a, ha⟩, ?_⟩
    rw [hlast, Harvest.ofScriptFile, hread]
    exact Harvest.lastLabel_of_reads (.cons ⟨_, _, hread⟩ .nil) _
  · obtain ⟨hresult, hlast, hstore⟩ := (scriptFile_follows options d).of_parse hrun
    have hrejected := Harvest.eq_of_single_error hresult
    obtain ⟨-, err, herr, -⟩ := exists_of_readIn_parse hrejected
    refine ⟨hstore, ⟨err, herr⟩, ?_⟩
    rw [hlast, Harvest.ofScriptFile, hrejected]
    rfl

/-- A document whose second block is rejected. -/
def halfAccepted : Document :=
  ⟨⟨['h']⟩, ['\x60', '\x60', '\x60', 'j', 's', '\n', 'l', 'e', 't', ' ', 'x', '\n',
    '\x60', '\x60', '\x60', '\n', '\x60', '\x60', '\x60', 'j', 's', '\n', '(', '\n',
    '\x60', '\x60', '\x60', '\n']⟩

/-- One label for the file, three for the facts of the first block and one for
its variable. -/
theorem extraction_is_atomic_halfAccepted :
    FactStore.TakesAll ({} : JsonLines) ∧ labelsSpent {} [['l', 'e', 't', ' ', 'x', '\n']] = 5 ∧
    ∃ source e s', extractMarkdown {} halfAccepted (⟨{}, 7, []⟩ : Sink JsonLines) =
      .error (.parse source e) s' ∧ s'.store = {} ∧
      ∃ before b after, scriptBlocks halfAccepted.scan.blocks = before ++ b :: after ∧
        s'.lastLabel = 7 + labelsSpent {} (before.map (·.content)) := by
  have htakes : FactStore.TakesAll ({} : JsonLines) := FactStore.takesAll_jsonLines rfl
  have hresult : (Harvest.ofMarkdown {} halfAccepted).result =
      .error (.parse halfAccepted.source ⟨"Unexpected end of input", ⟨6, 1⟩⟩) := by
    decide +kernel
  obtain ⟨notes, hrun⟩ := (markdown_follows {} halfAccepted).refuses hresult
    (⟨{}, 7, []⟩ : Sink JsonLines)
  obtain ⟨-, hrejected, -⟩ :=
    extraction_is_atomic (s := (⟨{}, 7, []⟩ : Sink JsonLines)) htakes {} halfAccepted _
  obtain ⟨hstore, before, b, after, hbs, -, -, hlast⟩ := hrejected _ _ hrun
  exact ⟨htakes, by decide +kernel, _, _, _, hrun, hstore, before, b, after, hbs, hlast⟩

end FenceFacts
