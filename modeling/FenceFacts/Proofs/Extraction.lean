import FenceFacts.Proofs.Harvest

/-!
# FenceFacts — extractions and their harvests

An extraction does what the harvest of its document says: it hands out the
label of the file, records the readings, and has the answer of the harvest or
its failure.  As a transaction it delivers the facts if there is an answer and
refuses if there is none.

## Results

* `markdown_follows`, `scriptFile_follows` — extractions follow the harvest.
* `Follows.delivers`, `Follows.refuses`    — and so do their transactions.
* `Follows.of_ok`, `Follows.of_parse`      — which tells the harvest from a run.
-/

namespace FenceFacts

-- ---------------------------------------------------------------------------
-- Actions that follow a harvest
-- ---------------------------------------------------------------------------

section Describes

variable {σ : Type} [FactStore σ]

/-- The action ends the way the harvest says and records its readings.  After a
fault nothing is said about what it has recorded. -/
def Harvest.Describes {α : Type} (g : Harvest) (action : EStateM ExtractionFailure (Workspace σ) α)
    (answer : LineTotals → α) (file : Label) (kind : TopLevelKind) (l : Ledger) : Prop :=
  match g.result with
  | .error (.fault e) => ∃ l' facts, Runs action l (.error (.fault e)) l' facts
  | result => Runs action l (result.map answer) (l.recordReadings g.readings)
      (l.readingsFacts file kind g.readings)

theorem Harvest.Describes.runs {α : Type} {rs : List Reading} {totals : LineTotals}
    {action : EStateM ExtractionFailure (Workspace σ) α} {answer : LineTotals → α} {file : Label}
    {kind : TopLevelKind} {l : Ledger}
    (h : (Harvest.mk rs (.ok totals)).Describes action answer file kind l) :
    Runs action l (.ok (answer totals)) (l.recordReadings rs) (l.readingsFacts file kind rs) :=
  h

/-- What is read first comes first. -/
theorem Harvest.Describes.bind {α β : Type} {g : Harvest} (rs : List Reading)
    {action : EStateM ExtractionFailure (Workspace σ) α}
    {next : α → EStateM ExtractionFailure (Workspace σ) β} {a : α} {answer : LineTotals → β}
    {file : Label} {kind : TopLevelKind} {l : Ledger}
    (haction : Runs action l (.ok a) (l.recordReadings rs) (l.readingsFacts file kind rs))
    (hnext : g.Describes (next a) answer file kind (l.recordReadings rs)) :
    (Harvest.mk (rs ++ g.readings) g.result).Describes (action >>= next) answer file kind l := by
  obtain ⟨readings, result⟩ := g
  have hrun {r l' facts} (hrun : Runs (next a) (l.recordReadings rs) r l' facts) :=
    haction.bind hrun
  unfold Describes at hnext ⊢
  rw [Ledger.recordReadings_append, Ledger.readingsFacts_append]
  match result with
  | .error (.fault e) =>
    obtain ⟨l', facts, hfault⟩ := hnext
    exact ⟨l', _, hrun hfault⟩
  | .error (.parse _ _) => exact hrun hnext
  | .error (.write _) => exact hrun hnext
  | .ok _ => exact hrun hnext

/-- What records nothing may come first. -/
theorem Harvest.Describes.after_silent {α β : Type} {g : Harvest}
    {action : EStateM ExtractionFailure (Workspace σ) α}
    {next : α → EStateM ExtractionFailure (Workspace σ) β} {a : α} {answer : LineTotals → β}
    {file : Label} {kind : TopLevelKind} {l : Ledger} (haction : Runs action l (.ok a) l [])
    (hnext : g.Describes (next a) answer file kind l) :
    g.Describes (action >>= next) answer file kind l :=
  Describes.bind [] haction hnext

theorem Harvest.Describes.bind_error {α β : Type} {rs : List Reading} {e : ExtractionFailure}
    {action : EStateM ExtractionFailure (Workspace σ) α} {answer : LineTotals → α}
    {answer' : LineTotals → β} {file : Label} {kind : TopLevelKind} {l : Ledger}
    (h : (Harvest.mk rs (.error e)).Describes action answer file kind l)
    (next : α → EStateM ExtractionFailure (Workspace σ) β) :
    (Harvest.mk rs (.error e)).Describes (action >>= next) answer' file kind l := by
  match e with
  | .fault e =>
    obtain ⟨l', facts, hrun⟩ := h
    exact ⟨l', facts, hrun.bind_error⟩
  | .parse _ _ => exact RunsTo.bind_error h
  | .write _ => exact RunsTo.bind_error h

end Describes

-- ---------------------------------------------------------------------------
-- Blocks
-- ---------------------------------------------------------------------------

section Blocks

variable {σ : Type} [FactStore σ]

open Workspace

/-- A script is read at its place in the document, and so are its errors. -/
theorem describes_inDocument (options : ExtractionOptions) (source : Source) (s : Snippet)
    (l : Ledger) :
    (Harvest.single (readIn source options s.text s.translator)).Describes
      ((extractScript (σ := σ) options s).adaptExcept (·.inDocument source s.translator)) id
      s.file s.kind l := by
  have hscript := runs_extractScript (σ := σ) options s l
  rw [readIn]
  cases hread : readScript options s.text s.translator with
  | ok r =>
    rw [hread] at hscript
    have hrun := hscript.adaptExcept (SnippetFailure.inDocument source s.translator)
    rw [← Ledger.readingsFacts_singleton] at hrun
    exact hrun
  | error e =>
    rw [hread] at hscript
    cases e with
    | fault e =>
      obtain ⟨l', facts, hrun⟩ := hscript
      exact ⟨l', facts, hrun.adaptExcept _⟩
    | write e => exact hscript.adaptExcept _
    | parse e =>
      have hrun := hscript.adaptExcept (·.inDocument source s.translator)
      simp only [Except.mapError, SnippetFailure.inDocument] at hrun ⊢
      -- an error that has no place in the document is a fault
      cases he : e.translated s.translator with
      | ok e' =>
        simp only [he] at hrun ⊢
        exact hrun
      | error e' =>
        simp only [he] at hrun ⊢
        exact ⟨l, [], hrun⟩

theorem describes_extractBlock (options : ExtractionOptions) (d : Document) (file : Label)
    (b : Block) (l : Ledger) :
    (Harvest.single (readBlock options d b)).Describes
      (extractBlock (σ := σ) (extractScript options) d file b) id file .inlineScript l := by
  unfold readBlock extractBlock
  cases d.anchor b with
  | error e => exact ⟨_, _, (runs_ofExcept_error rfl ExtractionFailure.fault l).bind_error⟩
  | ok anchor =>
    have hanchor := runs_ofExcept_ok (σ := σ) (x := .ok anchor) rfl ExtractionFailure.fault l
    have hscript := describes_inDocument (σ := σ) options d.source
      ⟨b.content, .inlineScript, ⟨anchor⟩, file⟩ l
    refine Harvest.Describes.after_silent hanchor ?_
    exact Harvest.Describes.after_silent (runs_note _ _ l) hscript

theorem runs_tallyBlock_blank {b : Block} (h : b.isBlank = true)
    (extract : SnippetExtractor σ) (d : Document) (file : Label) (tally : BlockTally) (l : Ledger) :
    Runs (tallyBlock extract d file tally b) l (.ok tally) l [] := by
  unfold tallyBlock
  rw [if_pos h]
  exact (runs_note _ _ l).bind ((runs_note _ _ l).bind (RunsTo.pure tally l))

theorem runs_tallyBlock {b : Block} (hblank : ¬ b.isBlank = true) {options : ExtractionOptions}
    {d : Document} {r : Reading} (hread : readBlock options d b = .ok r) (file : Label)
    (tally : BlockTally) (l : Ledger) :
    Runs (σ := σ) (tallyBlock (extractScript options) d file tally b) l
      (((tally.totals.add r.lines).map (⟨·, tally.blocks + 1⟩)).mapError .fault)
      (l.recordReadings [r]) (l.readingsFacts file .inlineScript [r]) := by
  have hblock := describes_extractBlock (σ := σ) options d file b l
  rw [hread] at hblock
  have hcount : Runs (σ := σ) (do
      let totals ← ofExcept .fault (tally.totals.add r.lines)
      return (⟨totals, tally.blocks + 1⟩ : BlockTally)) (l.recordReading r)
      (((tally.totals.add r.lines).map (⟨·, tally.blocks + 1⟩)).mapError ExtractionFailure.fault)
      (l.recordReading r) [] := by
    cases hadd : tally.totals.add r.lines with
    | ok totals => exact (runs_ofExcept_ok rfl _ _).bind (RunsTo.pure _ _)
    | error e => exact (runs_ofExcept_error rfl ExtractionFailure.fault _).bind_error
  unfold tallyBlock
  rw [if_neg hblank, ← List.append_nil (l.readingsFacts file .inlineScript [r])]
  refine (runs_note _ _ l).bind ?_
  exact hblock.runs.bind hcount

theorem describes_tallyBlock_error {b : Block} (hblank : ¬ b.isBlank = true)
    {options : ExtractionOptions} {d : Document} {e : ExtractionFailure}
    (hread : readBlock options d b = .error e) (file : Label) (tally : BlockTally) (l : Ledger) :
    (Harvest.mk [] (.error e)).Describes
      (tallyBlock (σ := σ) (extractScript options) d file tally b) (⟨·, tally.blocks⟩)
      file .inlineScript l := by
  have hblock := describes_extractBlock (σ := σ) options d file b l
  rw [hread] at hblock
  unfold tallyBlock
  rw [if_neg hblank]
  refine Harvest.Describes.after_silent (runs_note _ _ l) ?_
  exact hblock.bind_error _

/-- The blocks of a document, **one after the other**. -/
theorem describes_tallyBlocks (options : ExtractionOptions) (d : Document) (file : Label)
    (bs : List Block) (tally : BlockTally) (l : Ledger) :
    (readBlocks options d tally.totals bs).Describes
      (bs.foldlM (tallyBlock (σ := σ) (extractScript options) d file) tally)
      (⟨·, tally.blocks + (readBlocks options d tally.totals bs).readings.length⟩)
      file .inlineScript l := by
  -- the tally and the ledger are those that the blocks before have left
  induction bs generalizing tally l with
  | nil => exact RunsTo.pure tally l
  | cons b bs ih =>
    rw [List.foldlM_cons]
    by_cases hblank : b.isBlank = true
    · rw [readBlocks_of_blank hblank]
      exact Harvest.Describes.after_silent (runs_tallyBlock_blank hblank _ d file tally l)
        (ih tally l)
    · cases hread : readBlock options d b with
      | error e =>
        rw [readBlocks_of_error hblank hread]
        exact (describes_tallyBlock_error hblank hread file tally l).bind_error _
      | ok r =>
        have hrun := runs_tallyBlock (σ := σ) hblank hread file tally l
        cases hadd : tally.totals.add r.lines with
        | error e =>
          -- recorded, but too much to count
          rw [hadd] at hrun
          rw [readBlocks_of_overflow hblank hread hadd]
          exact ⟨_, _, hrun.bind_error⟩
        | ok totals =>
          rw [hadd] at hrun
          rw [readBlocks_of_ok hblank hread hadd]
          have hnext := ih ⟨totals, tally.blocks + 1⟩ (l.recordReadings [r])
          rw [List.length_cons, Nat.add_comm _ 1, ← Nat.add_assoc]
          exact Harvest.Describes.bind [r] hrun hnext

end Blocks

-- ---------------------------------------------------------------------------
-- Documents
-- ---------------------------------------------------------------------------

section Documents

variable {σ : Type} [FactStore σ]

open Workspace

/-- The extraction of a document ends the way the harvest says and records its
readings behind the fact for the file.  After a fault nothing is said about
what it has recorded. -/
def Harvest.Follows (g : Harvest) (extraction : EStateM ExtractionFailure (Sink σ) LineTotals)
    (path : Text) (kind : TopLevelKind) : Prop :=
  ∀ last, match g.result with
    | .error (.fault e) => ∃ last' facts,
        SinkRuns extraction last (.error (.fault e)) last' facts
    | result => SinkRuns extraction last result (g.lastLabel last) (g.facts path kind last)

theorem sinkRuns_emitFile (d : Document) (last : Nat) :
    SinkRuns (σ := σ) (emitFile d) last (.ok ⟨last + 1⟩) (last + 1)
      [.file ⟨last + 1⟩ d.source.path] :=
  (sinkRuns_fresh last).bind
    (((sinkRuns_emit _ (last + 1)).adaptExcept ExtractionFailure.write).bind_pure _)

/-- First the file, then its scripts with a scope of their own. -/
theorem Harvest.follows {α : Type} {g : Harvest} {d : Document} {kind : TopLevelKind}
    {work : Label → EStateM ExtractionFailure (Workspace σ) α} {answer : LineTotals → α}
    {finish : α → EStateM ExtractionFailure (Sink σ) LineTotals}
    (hwork : ∀ file l, g.Describes (work file) answer file kind l)
    (hfinish : ∀ totals last, SinkRuns (finish (answer totals)) last (.ok totals) last []) :
    g.Follows (do
      let file ← emitFile d
      let a ← withFreshScope (work file)
      finish a) d.source.path kind := by
  intro last
  have hfile := sinkRuns_emitFile (σ := σ) d last
  have hwork := hwork ⟨last + 1⟩ (ledger last)
  obtain ⟨readings, result⟩ := g
  match result with
  | .error (.fault e) =>
    obtain ⟨l', facts, hrun⟩ := hwork
    exact ⟨_, _, hfile.bind (sinkRuns_withFreshScope hrun).bind_error⟩
  | .error (.parse _ _) => exact hfile.bind (sinkRuns_withFreshScope hwork).bind_error
  | .error (.write _) => exact hfile.bind (sinkRuns_withFreshScope hwork).bind_error
  | .ok totals =>
    have hrun := (sinkRuns_withFreshScope hwork).bind (hfinish totals _)
    rw [List.append_nil] at hrun
    exact hfile.bind hrun

/-- The extraction of a Markdown document **follows its harvest**. -/
theorem markdown_follows (options : ExtractionOptions) (d : Document) :
    (Harvest.ofMarkdown options d).Follows
      (extractMarkdownInto (σ := σ) (extractScript options.forBlocks) d) d.source.path
      .inlineScript := by
  unfold extractMarkdownInto
  refine Harvest.follows (fun file l => describes_tallyBlocks options.forBlocks d file
    d.scan.blocks {} l) fun totals last => ?_
  cases d.scan.unclosed? with
  | none => exact (sinkRuns_note _ _ last).bind (RunsTo.pure totals last)
  | some fence =>
    exact (sinkRuns_note _ _ last).bind ((sinkRuns_note _ _ last).bind (RunsTo.pure totals last))

/-- The extraction of a script file **follows its harvest**. -/
theorem scriptFile_follows (options : ExtractionOptions) (d : Document) :
    (Harvest.ofScriptFile options d).Follows (extractScriptInto (σ := σ) options d) d.source.path
      .script := by
  have hwork (file : Label) (l : Ledger) :=
    describes_inDocument (σ := σ) options d.source ⟨d.text, .script, {}, file⟩ l
  have h : (Harvest.ofScriptFile options d).Follows _ d.source.path .script :=
    Harvest.follows hwork fun totals last => RunsTo.pure totals last
  simp only [bind_pure] at h
  exact h

end Documents

-- ---------------------------------------------------------------------------
-- Transactions
-- ---------------------------------------------------------------------------

section Transactions

variable {σ : Type} [FactStore σ] {g : Harvest} {path : Text} {kind : TopLevelKind}
  {work : EStateM ExtractionFailure (Sink (Draft σ)) LineTotals} {s s' : Sink σ}

/-- With an answer, the facts are **delivered**. -/
theorem Harvest.Follows.delivers (h : g.Follows work path kind) {totals : LineTotals}
    (hresult : g.result = .ok totals) (s : Sink σ) :
    Delivers (Sink.transaction .write work) s totals (g.facts path kind s.lastLabel)
      (g.lastLabel s.lastLabel) := by
  have hrun := h s.lastLabel
  rw [hresult] at hrun
  exact transaction_delivers hrun

theorem Harvest.Follows.refuses (h : g.Follows work path kind) {source : Source} {e : ParseError}
    (hresult : g.result = .error (.parse source e)) (s : Sink σ) :
    Refuses (Sink.transaction .write work) s (.parse source e) (g.lastLabel s.lastLabel) := by
  have hrun := h s.lastLabel
  rw [hresult] at hrun
  exact transaction_refuses hrun

/-- Which labels a failure spends depends only on those spent before. -/
theorem Harvest.Follows.exists_refuses_from (h : g.Follows work path kind) {e : ExtractionFailure}
    (hresult : g.result = .error e) (last : Nat) :
    ∃ last', ∀ s : Sink σ, s.lastLabel = last →
      Refuses (Sink.transaction .write work) s e last' := by
  have hrun := h last
  rw [hresult] at hrun
  match e with
  | .fault e =>
    obtain ⟨last', facts, hrun⟩ := hrun
    exact ⟨last', fun s hs => transaction_refuses (hs ▸ hrun)⟩
  | .parse _ _ =>
    refine ⟨g.lastLabel last, ?_⟩
    rintro s rfl
    exact transaction_refuses hrun
  | .write _ =>
    refine ⟨g.lastLabel last, ?_⟩
    rintro s rfl
    exact transaction_refuses hrun

theorem Harvest.Follows.exists_refuses (h : g.Follows work path kind) {e : ExtractionFailure}
    (hresult : g.result = .error e) (s : Sink σ) :
    ∃ last, Refuses (Sink.transaction .write work) s e last := by
  obtain ⟨last, hrefuses⟩ := h.exists_refuses_from hresult s.lastLabel
  exact ⟨last, hrefuses s rfl⟩

/-- A transaction with an answer has the answer of the harvest. -/
theorem Harvest.Follows.of_ok (h : g.Follows work path kind) {totals : LineTotals}
    (hrun : Sink.transaction .write work s = .ok totals s') :
    g.result = .ok totals ∧ s'.lastLabel = g.lastLabel s.lastLabel ∧
      FactStore.writeAll (g.facts path kind s.lastLabel) s.store = .ok () s'.store := by
  cases hresult : g.result with
  | error e =>
    obtain ⟨last, notes, hrefuses⟩ := h.exists_refuses hresult s
    rw [hrefuses] at hrun
    cases hrun
  | ok totals' =>
    obtain ⟨notes, hdelivers⟩ := h.delivers hresult s
    rw [hdelivers] at hrun
    cases hwrite : FactStore.writeAll (g.facts path kind s.lastLabel) s.store with
    | ok _ store =>
      rw [hwrite] at hrun
      injection hrun with htotals hsink
      subst htotals hsink
      exact ⟨rfl, rfl, rfl⟩
    | error e store =>
      rw [hwrite] at hrun
      cases hrun

/-- A transaction that rejects a script rejects the one of the harvest. -/
theorem Harvest.Follows.of_parse (h : g.Follows work path kind) {source : Source} {e : ParseError}
    (hrun : Sink.transaction .write work s = .error (.parse source e) s') :
    g.result = .error (.parse source e) ∧ s'.lastLabel = g.lastLabel s.lastLabel ∧
      s'.store = s.store := by
  cases hresult : g.result with
  | error e' =>
    obtain ⟨last, notes, hrefuses⟩ := h.exists_refuses hresult s
    rw [hrefuses] at hrun
    injection hrun with he hsink
    subst he
    obtain ⟨notes', hrefuses'⟩ := h.refuses hresult s
    have hsame := hrefuses.symm.trans hrefuses'
    injection hsame with _ hsame
    rw [hsame] at hsink
    subst hsink
    exact ⟨rfl, rfl, rfl⟩
  | ok totals =>
    obtain ⟨notes, hdelivers⟩ := h.delivers hresult s
    rw [hdelivers] at hrun
    cases hwrite : FactStore.writeAll (g.facts path kind s.lastLabel) s.store with
    | ok _ store =>
      rw [hwrite] at hrun
      cases hrun
    | error e store =>
      rw [hwrite] at hrun
      cases hrun

end Transactions

end FenceFacts
