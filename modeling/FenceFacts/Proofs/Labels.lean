import FenceFacts.Proofs.Recording

/-!
# FenceFacts — labels are never taken back

However an action ends, the last label afterwards is not below the one before:
with an answer, with an error that drops what it has emitted, and with a fault
of which nothing else is told.  So no label is handed out twice on one sink.

## Results

* `Climbs.bind`, `climbs_transaction`, … — actions out of parts that climb.
* `climbs_extractMarkdown`, `climbs_extractScriptFile` — the extractions.
-/

namespace FenceFacts

/-- The state that an action ends in, with or without an answer. -/
def stateAfter {ε α S : Type} : EStateM.Result ε S α → S
  | .ok _ s => s
  | .error _ s => s

/-- How an action ends, whatever state it leaves. -/
def resultOf {ε α S : Type} : EStateM.Result ε S α → Except ε α
  | .ok a _ => .ok a
  | .error e _ => .error e

/-- Afterwards the last label is the same or a later one. -/
def Climbs {ε α S : Type} (last : S → Nat) (action : EStateM ε S α) : Prop :=
  ∀ s, last s ≤ last (stateAfter (action s))

namespace Climbs

variable {ε ε' α β S : Type} {last : S → Nat}

theorem pure (a : α) : Climbs last (Pure.pure a : EStateM ε S α) := fun _ => Nat.le_refl _

theorem bind {m : EStateM ε S α} {k : α → EStateM ε S β} (hm : Climbs last m)
    (hk : ∀ a, Climbs last (k a)) : Climbs last (m >>= k) := by
  intro s
  have hfirst := hm s
  show last s ≤ last (stateAfter (EStateM.bind m k s))
  rw [EStateM.bind]
  cases h : m s with
  | ok a s' =>
    rw [h] at hfirst
    exact Nat.le_trans hfirst (hk a s')
  | error e s' =>
    rw [h] at hfirst
    exact hfirst

theorem adaptExcept {m : EStateM ε S α} (f : ε → ε') (hm : Climbs last m) :
    Climbs last (m.adaptExcept f) := by
  intro s
  have hm := hm s
  rw [EStateM.adaptExcept]
  cases h : m s <;> rw [h] at hm <;> exact hm

theorem forM {act : α → EStateM ε S PUnit} (h : ∀ x, Climbs last (act x)) (xs : List α) :
    Climbs last (xs.forM act) := by
  induction xs with
  | nil => exact pure _
  | cons x xs ih => exact (h x).bind fun _ => ih

theorem foldlM {act : β → α → EStateM ε S β} (h : ∀ b x, Climbs last (act b x)) (b : β)
    (xs : List α) : Climbs last (xs.foldlM act b) := by
  induction xs generalizing b with
  | nil => exact pure b
  | cons x xs ih => exact (h b x).bind fun b' => ih b'

end Climbs

-- ---------------------------------------------------------------------------
-- Steps
-- ---------------------------------------------------------------------------

/-- The last label that the sink of a workspace has handed out. -/
def Workspace.lastLabel {σ : Type} (w : Workspace σ) : Nat := w.sink.lastLabel

section Steps

variable {σ ε ε' α : Type}

open Workspace

theorem climbs_sinkFresh : Climbs (ε := ε) Sink.lastLabel (Sink.fresh (σ := σ)) :=
  fun s => Nat.le_succ s.lastLabel

theorem climbs_sinkNote (level : NoteLevel) (message : String) :
    Climbs (ε := ε) Sink.lastLabel (Sink.note (σ := σ) level message) := fun _ => Nat.le_refl _

theorem climbs_onStore (action : EStateM ε σ α) : Climbs Sink.lastLabel (Sink.onStore action) := by
  intro s
  rw [Sink.onStore]
  cases action s.store <;> exact Nat.le_refl _

theorem climbs_onSink {action : EStateM ε (Sink σ) α} (h : Climbs Sink.lastLabel action) :
    Climbs lastLabel (onSink action) := by
  intro w
  have h := h w.sink
  rw [onSink]
  cases hrun : action w.sink <;> rw [hrun] at h <;> exact h

theorem climbs_ofExcept (failed : ε' → ε) (x : Except ε' α) :
    Climbs lastLabel (ofExcept (σ := σ) failed x) := by
  intro w
  cases x <;> exact Nat.le_refl _

theorem climbs_declare (name : Text) : Climbs (ε := ε) lastLabel (declare (σ := σ) name) := by
  intro w
  rw [declare_eq]
  cases w.scope.lookup name with
  | some label => exact Nat.le_refl _
  | none => exact Nat.le_succ w.lastLabel

theorem climbs_withFreshScope {work : EStateM ε (Workspace σ) α} (h : Climbs lastLabel work) :
    Climbs Sink.lastLabel (withFreshScope work) := by
  intro s
  have h := h { sink := s }
  rw [withFreshScope]
  cases hrun : work { sink := s } <;> rw [hrun] at h <;> exact h

/-- Labels stay spent, also those of a draft that is dropped. -/
theorem climbs_transaction [FactStore σ] {failed : WriteError → ε}
    {work : EStateM ε (Sink (Draft σ)) α} (h : Climbs Sink.lastLabel work) :
    Climbs Sink.lastLabel (Sink.transaction failed work) := by
  intro s
  have h := h s.openDraft
  rw [Sink.transaction]
  cases hrun : work s.openDraft with
  | error e s' =>
    rw [hrun] at h
    exact h
  | ok a s' =>
    rw [hrun] at h
    have hcommit := climbs_onStore (FactStore.writeAll s'.store.pending) s'.dropDraft
    have hle := Nat.le_trans h hcommit
    rw [← Sink.commit] at hle
    dsimp only
    cases hcommitted : s'.commit <;> rw [hcommitted] at hle <;> exact hle

end Steps

-- ---------------------------------------------------------------------------
-- Extractions
-- ---------------------------------------------------------------------------

section Extractions

variable {σ : Type} [FactStore σ]

open Workspace

theorem climbs_emit (f : Fact) : Climbs lastLabel (emit (σ := σ) f) :=
  (climbs_onSink (climbs_onStore _)).adaptExcept _

theorem climbs_emitAt (s : Snippet) (place : Location) (fact : Label → Location → Fact) :
    Climbs lastLabel (emitAt (σ := σ) s place fact) :=
  (climbs_onSink climbs_sinkFresh).bind fun _ =>
    (climbs_ofExcept _ _).bind fun _ => climbs_emit _

theorem climbs_emitLine (s : Snippet) (topLevel : Label) (number : Nat) (line : IndexedLine) :
    Climbs lastLabel (emitLine (σ := σ) s topLevel number line) :=
  climbs_emitAt s _ _

theorem climbs_emitDeclaration (s : Snippet) (topLevel : Label) (d : Declaration) :
    Climbs lastLabel (emitDeclaration (σ := σ) s (.ofText s.text) topLevel d) :=
  (climbs_declare d.name).bind fun _ => climbs_emitAt s _ _

theorem climbs_emitMembers (options : ExtractionOptions) (s : Snippet) (a : Analysis)
    (topLevel : Label) : Climbs lastLabel (emitMembers (σ := σ) options s a topLevel) := by
  unfold emitMembers
  refine Climbs.bind ?_ fun _ => (Climbs.forM (fun _ => climbs_emitAt s _ _) _).bind fun _ =>
    Climbs.forM (climbs_emitDeclaration s topLevel) _
  split
  · exact Climbs.forM (fun (line, number) => climbs_emitLine s topLevel number line) _
  · exact Climbs.pure _

theorem climbs_extractScript (options : ExtractionOptions) (s : Snippet) :
    Climbs lastLabel (extractScript (σ := σ) options s) := by
  rw [extractScript_eq]
  exact (climbs_ofExcept _ _).bind fun a => (climbs_onSink climbs_sinkFresh).bind fun topLevel =>
    (climbs_ofExcept _ _).bind fun _ => (climbs_emit _).bind fun _ =>
      (climbs_emitMembers options s a topLevel).bind fun _ => Climbs.pure _

theorem climbs_emitFile (d : Document) : Climbs Sink.lastLabel (emitFile (σ := σ) d) :=
  climbs_sinkFresh.bind fun _ =>
    ((climbs_onStore _).adaptExcept _).bind fun _ => Climbs.pure _

theorem climbs_tallyBlock (options : ExtractionOptions) (d : Document) (file : Label)
    (tally : BlockTally) (b : Block) :
    Climbs lastLabel (tallyBlock (σ := σ) (extractScript options) d file tally b) := by
  have hnote (level : NoteLevel) (message : String) :
      Climbs lastLabel (note (σ := σ) (ε := ExtractionFailure) level message) :=
    climbs_onSink (climbs_sinkNote level message)
  have hblock : Climbs lastLabel (extractBlock (σ := σ) (extractScript options) d file b) :=
    (climbs_ofExcept _ _).bind fun _ => (hnote _ _).bind fun _ =>
      (climbs_extractScript options _).adaptExcept _
  unfold tallyBlock
  refine (hnote _ _).bind fun _ => ?_
  split
  · exact (hnote _ _).bind fun _ => Climbs.pure _
  · exact hblock.bind fun _ => (climbs_ofExcept _ _).bind fun _ => Climbs.pure _

theorem climbs_extractMarkdown (options : ExtractionOptions) (d : Document) :
    Climbs Sink.lastLabel (extractMarkdown (σ := σ) options d) := by
  refine climbs_transaction ((climbs_emitFile d).bind fun file => Climbs.bind
    (climbs_withFreshScope (Climbs.foldlM (climbs_tallyBlock options.forBlocks d file) {} _))
    fun tally => ?_)
  cases d.scan.unclosed? with
  | none => exact (climbs_sinkNote _ _).bind fun _ => Climbs.pure _
  | some fence =>
    exact (climbs_sinkNote _ _).bind fun _ => (climbs_sinkNote _ _).bind fun _ => Climbs.pure _

theorem climbs_extractScriptFile (options : ExtractionOptions) (d : Document) :
    Climbs Sink.lastLabel (extractScriptFile (σ := σ) options d) :=
  climbs_transaction ((climbs_emitFile d).bind fun _ =>
    climbs_withFreshScope ((climbs_extractScript options _).adaptExcept _))

end Extractions

end FenceFacts
