import FenceFacts.Proofs.Harvest
import FenceFacts.Proofs.Labels
import FenceFacts.Proofs.LineCounts
import Mathlib.Algebra.GroupWithZero.Nat

/-!
# FenceFacts — documents under any extractor

What an extraction does with a document is told for extractors of any kind: it
may count, emit, take labels, use the scope or fail in ways that depend on all
it has been given.  It is called once for each block that is not blank, in the
order of the document and each time on what the call before has left, up to
the first call that fails.  Between the calls nothing but notes is added.

The answer is the sum of the counts, provided that the store takes the facts in
the end; that it may refuse them is a failure of its own, when all calls have
had an answer.

## Results

* `exists_calls_of_blocks` — the calls for a list of blocks.
* `calls_in_order`         — the calls for a document, and what comes of them.
-/

namespace FenceFacts

-- ---------------------------------------------------------------------------
-- Calls
-- ---------------------------------------------------------------------------

/-- Apart from their notes the workspaces are the same. -/
structure Workspace.Alike {σ : Type} (w w' : Workspace σ) : Prop where
  scope : w.scope = w'.scope
  store : w.sink.store = w'.sink.store
  lastLabel : w.sink.lastLabel = w'.sink.lastLabel

/-- An extractor is called on the snippets one after the other, each time on
the workspace that the call before has left, notes aside.  Either every call
has an answer or the first one that fails is the last one. -/
inductive Calls {σ : Type} (extract : SnippetExtractor σ) :
    Workspace σ → List Snippet → List LineTotals → Option (Snippet × SnippetFailure) →
    Workspace σ → Prop
  | done {w w' : Workspace σ} : w.Alike w' → Calls extract w [] [] none w'
  | answered {w₀ w w' w'' : Workspace σ} {s : Snippet} {ss : List Snippet} {c : LineTotals}
    {cs : List LineTotals} {failure : Option (Snippet × SnippetFailure)} :
    w₀.Alike w → extract s w = .ok c w' → Calls extract w' ss cs failure w'' →
    Calls extract w₀ (s :: ss) (c :: cs) failure w''
  | failed {w₀ w w' : Workspace σ} {s : Snippet} {ss : List Snippet} {e : SnippetFailure} :
    w₀.Alike w → extract s w = .error e w' → Calls extract w₀ (s :: ss) [] (some (s, e)) w'

/-- The snippet holds the content of the block, anchored in the document. -/
structure IsSnippetOf (d : Document) (file : Label) (b : Block) (s : Snippet) : Prop where
  text : s.text = b.content
  kind : s.kind = .inlineScript
  anchor : d.anchor b = .ok s.translator.anchor
  file : s.file = file

instance (d : Document) (file : Label) : DecidableRel (IsSnippetOf d file) := fun b s =>
  decidable_of_iff (s.text = b.content ∧ s.kind = .inlineScript ∧
    d.anchor b = .ok s.translator.anchor ∧ s.file = file)
    ⟨fun ⟨text, kind, anchor, file⟩ => ⟨text, kind, anchor, file⟩,
      fun h => ⟨h.text, h.kind, h.anchor, h.file⟩⟩

-- ---------------------------------------------------------------------------
-- Blocks
-- ---------------------------------------------------------------------------

/-- The counts of several snippets together. -/
def LineTotals.total (counts : List LineTotals) : LineTotals :=
  ⟨(counts.map (·.code)).sum, (counts.map (·.comments)).sum⟩

/-- Neither count is out of range. -/
def LineTotals.InRange (t : LineTotals) : Prop :=
  t.code < bound ∧ t.comments < bound

namespace BlockTally

/-- The tally with some more counts. -/
def plus (tally : BlockTally) (counts : List LineTotals) : BlockTally :=
  ⟨⟨tally.totals.code + (LineTotals.total counts).code,
    tally.totals.comments + (LineTotals.total counts).comments⟩, tally.blocks + counts.length⟩

theorem plus_cons (tally : BlockTally) (c : LineTotals) (cs : List LineTotals) :
    tally.plus (c :: cs) = (tally.plus [c]).plus cs := by
  simp only [plus, LineTotals.total, List.map_cons, List.sum_cons, List.map_nil, List.sum_nil,
    List.length_cons, List.length_nil, Nat.add_zero, Nat.zero_add, Nat.add_assoc, Nat.add_comm 1]

theorem totals_plus_empty (counts : List LineTotals) :
    (plus {} counts).totals = LineTotals.total counts := by
  simp only [plus, Nat.zero_add]

theorem inRange_of_plus {tally : BlockTally} {counts : List LineTotals}
    (h : (tally.plus counts).totals.InRange) : tally.totals.InRange :=
  ⟨Nat.lt_of_le_of_lt (Nat.le_add_right _ _) h.1, Nat.lt_of_le_of_lt (Nat.le_add_right _ _) h.2⟩

end BlockTally

section Blocks

variable {σ : Type} (extract : SnippetExtractor σ) {d : Document} {file : Label} {b : Block}
  {w₀ w : Workspace σ}

namespace Workspace

/-- With one more note. -/
def noted (w : Workspace σ) (n : Note) : Workspace σ :=
  { w with sink := { w.sink with notes := w.sink.notes ++ [n] } }

theorem Alike.refl (w : Workspace σ) : w.Alike w := ⟨rfl, rfl, rfl⟩

theorem Alike.noted (h : w₀.Alike w) (n : Note) : w₀.Alike (w.noted n) :=
  ⟨h.scope, h.store, h.lastLabel⟩

end Workspace

theorem tallyBlock_of_blank (h : b.isBlank = true) (d : Document) (file : Label)
    (tally : BlockTally) (hw : w₀.Alike w) :
    ∃ w', tallyBlock extract d file tally b w = .ok tally w' ∧ w₀.Alike w' := by
  unfold tallyBlock
  rw [if_pos h]
  exact ⟨(w.noted _).noted _, rfl, (hw.noted _).noted _⟩

/-- A block is handed to the extractor behind a note. -/
theorem extractBlock_eq {anchor : Position} (hanchor : d.anchor b = .ok anchor) (file : Label)
    (w : Workspace σ) :
    ∃ n, extractBlock extract d file b w =
      (extract ⟨b.content, .inlineScript, ⟨anchor⟩, file⟩).adaptExcept
        (·.inDocument d.source ⟨anchor⟩) (w.noted n) := by
  unfold extractBlock
  rw [hanchor]
  exact ⟨_, rfl⟩

/-- What the tally becomes by a call for a snippet. -/
def BlockTally.after (tally : BlockTally) (d : Document) (s : Snippet) :
    EStateM.Result SnippetFailure (Workspace σ) LineTotals →
    EStateM.Result ExtractionFailure (Workspace σ) BlockTally
  | .error e w => .error (e.inDocument d.source s.translator) w
  | .ok c w =>
    match tally.totals.add c with
    | .error f => .error (.fault f) w
    | .ok totals => .ok ⟨totals, tally.blocks + 1⟩ w

theorem BlockTally.after_ok {tally : BlockTally} {c : LineTotals}
    (h : (tally.plus [c]).totals.InRange) (d : Document) (s : Snippet) (w : Workspace σ) :
    tally.after d s (.ok c w) = .ok (tally.plus [c]) w := by
  have hadd : tally.totals.add c = .ok (tally.plus [c]).totals := LineTotals.add_of_lt h.1 h.2
  rw [after, hadd]
  rfl

/-- A block that is not blank is one call. -/
theorem tallyBlock_of_not_blank (h : ¬ b.isBlank = true) {s : Snippet}
    (hs : IsSnippetOf d file b s) (tally : BlockTally) (hw : w₀.Alike w) :
    ∃ w₁, w₀.Alike w₁ ∧ tallyBlock extract d file tally b w = tally.after d s (extract s w₁) := by
  obtain ⟨text, kind, translator, file⟩ := s
  obtain ⟨rfl, rfl, hanchor, rfl⟩ := hs
  have hcall (w : Workspace σ) (hw : w₀.Alike w) :
      ∃ w₁, w₀.Alike w₁ ∧ (do
        let counts ← extractBlock extract d file b
        let totals ← Workspace.ofExcept .fault (tally.totals.add counts)
        return (⟨totals, tally.blocks + 1⟩ : BlockTally)) w =
        tally.after d ⟨b.content, .inlineScript, translator, file⟩
          (extract ⟨b.content, .inlineScript, translator, file⟩ w₁) := by
    obtain ⟨n, hblock⟩ := extractBlock_eq extract hanchor file w
    rw [EStateM.adaptExcept] at hblock
    refine ⟨w.noted n, hw.noted n, ?_⟩
    cases hrun : extract ⟨b.content, .inlineScript, translator, file⟩ (w.noted n) with
    | error e w' =>
      rw [hrun] at hblock
      exact bind_of_error hblock _
    | ok c w' =>
      rw [hrun] at hblock
      rw [bind_of_ok hblock, BlockTally.after]
      cases tally.totals.add c <;> rfl
  unfold tallyBlock
  rw [if_neg h]
  exact hcall (w.noted _) (hw.noted _)

/-- **The blocks** of a document are calls for their snippets, and the tally is
the sum of the counts as long as that is in range. -/
theorem exists_calls_of_blocks (tally : BlockTally) {bs : List Block} {snippets : List Snippet}
    (hsnippets : List.Forall₂ (IsSnippetOf d file) (scriptBlocks bs) snippets)
    (hw : w₀.Alike w) :
    ∃ counts failure w', Calls extract w₀ snippets counts failure w' ∧
      ((tally.plus counts).totals.InRange →
        bs.foldlM (tallyBlock extract d file) tally w =
          match failure with
          | none => .ok (tally.plus counts) w'
          | some (s, e) => .error (e.inDocument d.source s.translator) w') := by
  -- the calls so far have left `w₀`, and notes have been added since
  induction bs generalizing snippets tally w₀ w with
  | nil =>
    cases hsnippets
    exact ⟨[], none, w, .done hw, fun _ => rfl⟩
  | cons b bs ih =>
    rw [List.foldlM_cons]
    by_cases hblank : b.isBlank = true
    · rw [scriptBlocks_of_blank hblank] at hsnippets
      obtain ⟨w', hrun, hw'⟩ := tallyBlock_of_blank extract hblank d file tally hw
      rw [bind_of_ok hrun]
      exact ih tally hsnippets hw'
    · rw [scriptBlocks_of_not_blank hblank] at hsnippets
      cases hsnippets with
      | @cons _ s _ snippets hs hsnippets =>
      obtain ⟨w₁, hw₁, hrun⟩ := tallyBlock_of_not_blank extract hblank hs tally hw
      cases hcall : extract s w₁ with
      | error e w' =>
        rw [hcall] at hrun
        exact ⟨[], some (s, e), w', .failed hw₁ hcall, fun _ => bind_of_error hrun _⟩
      | ok c w' =>
        obtain ⟨counts, failure, w'', hcalls, hrest⟩ := ih (tally.plus [c]) hsnippets (.refl w')
        refine ⟨c :: counts, failure, w'', .answered hw₁ hcall hcalls, fun hrange => ?_⟩
        rw [BlockTally.plus_cons] at hrange ⊢
        rw [hcall, BlockTally.after_ok (BlockTally.inRange_of_plus hrange)] at hrun
        rw [bind_of_ok hrun]
        exact hrest hrange

end Blocks

-- ---------------------------------------------------------------------------
-- Documents
-- ---------------------------------------------------------------------------

theorem scriptBlocks_eq (bs : List Block) :
    scriptBlocks bs = bs.filter fun b => b.content.any (' ' < ·) := by
  refine List.filter_congr fun b _ => ?_
  rw [Block.isBlank, Text.isBlank, List.not_all_eq_any_not]
  refine congrArg (b.content.any ·) (funext fun c => ?_)
  simp only [← decide_not, Char.not_le]

section Documents

variable {σ : Type}

/-- What the first call for a document finds: no variables, the fact for the
file in a draft, and the label that the fact has taken. -/
def startWorkspace (d : Document) (s : Sink σ) : Workspace (Draft σ) where
  sink :=
    { store := ⟨s.store, [.file ⟨s.lastLabel + 1⟩ d.source.path]⟩
      lastLabel := s.lastLabel + 1
      notes := s.notes }

theorem Workspace.withFreshScope_of_ok {ε α : Type} {work : EStateM ε (Workspace σ) α}
    {s : Sink σ} {a : α} {w : Workspace σ} (h : work { sink := s } = .ok a w) :
    withFreshScope work s = .ok a w.sink := by
  rw [withFreshScope, h]

theorem Workspace.withFreshScope_of_error {ε α : Type} {work : EStateM ε (Workspace σ) α}
    {s : Sink σ} {e : ε} {w : Workspace σ} (h : work { sink := s } = .error e w) :
    withFreshScope work s = .error e w.sink := by
  rw [withFreshScope, h]

/-- The calls for a document, straight into a draft. -/
theorem exists_calls_into (extract : SnippetExtractor (Draft σ)) (d : Document) (s : Sink σ)
    {snippets : List Snippet}
    (hsnippets : List.Forall₂ (IsSnippetOf d ⟨s.lastLabel + 1⟩) (scriptBlocks d.scan.blocks)
      snippets) :
    ∃ counts failure w, Calls extract (startWorkspace d s) snippets counts failure w ∧
      ((LineTotals.total counts).InRange →
        ∃ notes, extractMarkdownInto extract d s.openDraft =
          match failure with
          | none => .ok (.total counts) { w.sink with notes }
          | some (snippet, e) =>
            .error (e.inDocument d.source snippet.translator) { w.sink with notes }) := by
  obtain ⟨counts, failure, w, hcalls, hrun⟩ :=
    exists_calls_of_blocks extract {} hsnippets (.refl (startWorkspace d s))
  refine ⟨counts, failure, w, hcalls, fun hrange => ?_⟩
  have hrun := hrun (BlockTally.totals_plus_empty counts ▸ hrange)
  have hfile : emitFile d s.openDraft = .ok ⟨s.lastLabel + 1⟩ (startWorkspace d s).sink := rfl
  unfold extractMarkdownInto
  rw [bind_of_ok hfile]
  cases failure with
  | some failure =>
    exact ⟨w.sink.notes, bind_of_error (Workspace.withFreshScope_of_error hrun) _⟩
  | none =>
    have hblocks : Workspace.withFreshScope
        (d.scan.blocks.foldlM (tallyBlock extract d ⟨s.lastLabel + 1⟩) {})
        (startWorkspace d s).sink = .ok (BlockTally.plus {} counts) w.sink :=
      Workspace.withFreshScope_of_ok hrun
    rw [bind_of_ok hblocks, ← BlockTally.totals_plus_empty]
    cases d.scan.unclosed? <;> exact ⟨_, rfl⟩

/-- How an extraction ends, notes aside. -/
structure Ends (run : EStateM.Result ExtractionFailure (Sink σ) LineTotals)
    (result : Except ExtractionFailure LineTotals) (store : σ) (lastLabel : Nat) : Prop where
  result : resultOf run = result
  store : (stateAfter run).store = store
  lastLabel : (stateAfter run).lastLabel = lastLabel

/-- What a document comes to by the calls for it, with these counts, this
failure and this workspace in the end. -/
structure ComesTo [FactStore σ] (source : Source) (counts : List LineTotals)
    (failure : Option (Snippet × SnippetFailure)) (w : Workspace (Draft σ))
    (run : EStateM.Result ExtractionFailure (Sink σ) LineTotals) : Prop where
  /-- The facts are written once there is an answer to every call. -/
  taken : failure = none → ∀ store,
    FactStore.writeAll w.sink.store.pending w.sink.store.target = .ok () store →
    Ends run (.ok (.total counts)) store w.sink.lastLabel
  /-- The store may still refuse them. -/
  refused : failure = none → ∀ e store,
    FactStore.writeAll w.sink.store.pending w.sink.store.target = .error e store →
    Ends run (.error (.write e)) store w.sink.lastLabel
  /-- A rejected snippet is one of the document. -/
  rejected : ∀ snippet e p, failure = some (snippet, .parse e) →
    snippet.translator.translate e.position = .ok p →
    Ends run (.error (.parse source ⟨e.message, p⟩)) w.sink.store.target w.sink.lastLabel
  /-- A snippet that cannot be written is one of the document as well. -/
  unwritten : ∀ snippet e, failure = some (snippet, .write e) →
    Ends run (.error (.write e)) w.sink.store.target w.sink.lastLabel

/-- **Any extractor** is called on the blocks with a character above the
blank, in order and with the content, the anchor and the file of each, from an
empty scope on and up to the first call that fails.  The document then comes
to the sum of the counts, if it is in range and the store takes the facts, or
to that failure. -/
theorem calls_in_order [FactStore σ] (extract : SnippetExtractor (Draft σ)) (d : Document)
    (s : Sink σ) {snippets : List Snippet}
    (hsnippets : List.Forall₂ (IsSnippetOf d ⟨s.lastLabel + 1⟩)
      (d.scan.blocks.filter fun b => b.content.any (' ' < ·)) snippets) :
    ∃ counts failure w, Calls extract (startWorkspace d s) snippets counts failure w ∧
      ((LineTotals.total counts).InRange →
        ComesTo d.source counts failure w (extractMarkdownWith extract d s)) := by
  rw [← scriptBlocks_eq] at hsnippets
  obtain ⟨counts, failure, w, hcalls, hrun⟩ := exists_calls_into extract d s hsnippets
  refine ⟨counts, failure, w, hcalls, fun hrange => ?_⟩
  obtain ⟨notes, hrun⟩ := hrun hrange
  rw [extractMarkdownWith, Sink.transaction, hrun]
  refine ⟨?_, ?_, ?_, ?_⟩
  · rintro rfl store hwrite
    simp only [Sink.commit, Sink.onStore, Sink.dropDraft, hwrite]
    exact ⟨rfl, rfl, rfl⟩
  · rintro rfl e store hwrite
    simp only [Sink.commit, Sink.onStore, Sink.dropDraft, hwrite]
    exact ⟨rfl, rfl, rfl⟩
  · rintro snippet e p rfl htranslate
    have hposition : e.translated snippet.translator = .ok ⟨e.message, p⟩ := by
      rw [ParseError.translated, htranslate]
      rfl
    simp only [SnippetFailure.inDocument, hposition]
    exact ⟨rfl, rfl, rfl⟩
  · rintro snippet e rfl
    exact ⟨rfl, rfl, rfl⟩

/-- A blank block between two others. -/
def blankBetween : Document :=
  ⟨⟨['b']⟩, ['\x60', '\x60', '\x60', 'j', 's', '\n', 'x', '\n', '\x60', '\x60', '\x60', '\n',
    '\x60', '\x60', '\x60', 'j', 's', '\n', '\n', '\x60', '\x60', '\x60', '\n',
    '\x60', '\x60', '\x60', 'j', 's', '\n', 'y', '\n', '\x60', '\x60', '\x60', '\n']⟩

/-- Has an answer for one text only. -/
def onlyX : SnippetExtractor (Draft FactList) := fun s w =>
  if s.text = ['x', '\n'] then .ok ⟨1, 0⟩ w else .error (.parse ⟨"no", ⟨1, 2⟩⟩) w

def snippetX : Snippet := ⟨['x', '\n'], .inlineScript, ⟨⟨3, 1⟩⟩, ⟨1⟩⟩

def snippetY : Snippet := ⟨['y', '\n'], .inlineScript, ⟨⟨8, 1⟩⟩, ⟨1⟩⟩

/-- The third block is the second call, and its failure that of the document. -/
theorem calls_in_order_blankBetween :
    List.Forall₂ (IsSnippetOf blankBetween ⟨1⟩)
      (blankBetween.scan.blocks.filter fun b => b.content.any (' ' < ·)) [snippetX, snippetY] ∧
    Ends (extractMarkdownWith onlyX blankBetween { store := {} })
      (.error (.parse ⟨['b']⟩ ⟨"no", ⟨8, 2⟩⟩)) {} 1 := by
  have hsnippets : List.Forall₂ (IsSnippetOf blankBetween ⟨1⟩)
      (blankBetween.scan.blocks.filter fun b => b.content.any (' ' < ·))
      [snippetX, snippetY] := by
    decide +kernel
  refine ⟨hsnippets, ?_⟩
  obtain ⟨counts, failure, w, hcalls, hend⟩ :=
    calls_in_order onlyX blankBetween { store := {} } hsnippets
  have hx (w : Workspace (Draft FactList)) : onlyX snippetX w = .ok ⟨1, 0⟩ w := rfl
  have hy (w : Workspace (Draft FactList)) :
      onlyX snippetY w = .error (.parse ⟨"no", ⟨1, 2⟩⟩) w := rfl
  cases hcalls with
  | failed _ hfirst => exact absurd ((hx _).symm.trans hfirst) nofun
  | answered halike hfirst hrest =>
    obtain ⟨rfl, rfl⟩ := EStateM.Result.ok.inj ((hx _).symm.trans hfirst)
    cases hrest with
    | answered _ hsecond _ => exact absurd ((hy _).symm.trans hsecond) nofun
    | failed halike' hsecond =>
      obtain ⟨rfl, rfl⟩ := EStateM.Result.error.inj ((hy _).symm.trans hsecond)
      have hend := (hend ⟨by decide, by decide⟩).rejected _ _ ⟨8, 2⟩ rfl rfl
      rw [← halike'.store, ← halike.store, ← halike'.lastLabel, ← halike.lastLabel] at hend
      exact hend

/-- A document with one block. -/
def oneBlock : Document :=
  ⟨⟨['a', '.', 'm', 'd']⟩, ['a', '\n', '\x60', '\x60', '\x60', 'j', 's', '\n', 'x', ';', '\n',
    '\x60', '\x60', '\x60', '\n']⟩

/-- Its snippet. -/
def oneSnippet : Snippet := ⟨['x', ';', '\n'], .inlineScript, ⟨⟨3, 1⟩⟩, ⟨1⟩⟩

def noRoom : Sink JsonLines := { store := { room := some 0 } }

/-- The only call has an answer, but a device **without room** takes nothing. -/
theorem answered_but_refused :
    List.Forall₂ (IsSnippetOf oneBlock ⟨1⟩)
      (oneBlock.scan.blocks.filter fun b => b.content.any (' ' < ·)) [oneSnippet] ∧
    (∃ w, Calls (extractScript {}) (startWorkspace oneBlock noRoom) [oneSnippet] [⟨1, 0⟩] none w) ∧
    resultOf (extractMarkdownWith (extractScript {}) oneBlock noRoom) =
      .error (.write .deviceFull) := by
  have hanswer : resultOf (extractScript {} oneSnippet (startWorkspace oneBlock noRoom)) =
      .ok ⟨1, 0⟩ := by
    decide +kernel
  refine ⟨by decide +kernel, ?_, by decide +kernel⟩
  cases hrun : extractScript {} oneSnippet (startWorkspace oneBlock noRoom) with
  | error e w =>
    rw [hrun] at hanswer
    cases hanswer
  | ok c w =>
    rw [hrun] at hanswer
    obtain rfl := Except.ok.inj hanswer
    exact ⟨w, .answered (.refl _) hrun (.done (.refl w))⟩

end Documents

end FenceFacts
