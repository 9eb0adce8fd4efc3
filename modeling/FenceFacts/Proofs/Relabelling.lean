import FenceFacts.Proofs.Simulation

/-!
# FenceFacts — the same extraction, further labels

What an extraction does to its sink does not depend on which labels are spent:
it never looks into a label, it only hands them out, one after the other, and
passes them on.  So from a sink that is a number of labels ahead it ends in
the same way, as many labels ahead, and emits the same facts with labels that
are as far ahead.  That holds for every extraction and however it ends, on any
two stores that correspond as long as they take the same facts.

## Results

* `simulates_declare`, `simulates_emit`, … — the steps.
* `simulates_transaction`                 — through drafts.
* `simulates_extractMarkdown`, `simulates_extractScriptFile` — the extractions.
-/

namespace FenceFacts

-- ---------------------------------------------------------------------------
-- Other labels
-- ---------------------------------------------------------------------------

/-- The fact with other labels: its own, those of the facts it refers to, and
that of its variable. -/
def Fact.renamed (ρ : Label → Label) : Fact → Fact
  | file l path => file (ρ l) path
  | topLevel l owner kind isModule location => topLevel (ρ l) (ρ owner) kind isModule location
  | line l parent text terminator location => line (ρ l) (ρ parent) text terminator location
  | comment l parent text location => comment (ρ l) (ρ parent) text location
  | declaration l parent binding name kind location =>
    declaration (ρ l) (ρ parent) (ρ binding) name kind location

def Scope.renamed (ρ : Label → Label) (s : Scope) : Scope :=
  ⟨s.labels.map fun (name, label) => (name, ρ label)⟩

theorem Scope.lookup_renamed (ρ : Label → Label) (s : Scope) (name : Text) :
    (s.renamed ρ).lookup name = (s.lookup name).map ρ := by
  obtain ⟨labels⟩ := s
  show List.lookup name (labels.map _) = (List.lookup name labels).map _
  induction labels with
  | nil => rfl
  | cons entry labels ih =>
    rw [List.map_cons, List.lookup_cons, List.lookup_cons]
    split
    · rfl
    · exact ih

-- ---------------------------------------------------------------------------
-- Further labels
-- ---------------------------------------------------------------------------

def Label.shifted (n : Nat) (l : Label) : Label := ⟨l.number + n⟩

/-- The fact with all of its labels `n` further: its own, those of the facts it
refers to, and that of its variable. -/
def Fact.shifted (n : Nat) : Fact → Fact
  | file l path => file (l.shifted n) path
  | topLevel l owner kind isModule location =>
    topLevel (l.shifted n) (owner.shifted n) kind isModule location
  | line l parent text terminator location =>
    line (l.shifted n) (parent.shifted n) text terminator location
  | comment l parent text location => comment (l.shifted n) (parent.shifted n) text location
  | declaration l parent binding name kind location =>
    declaration (l.shifted n) (parent.shifted n) (binding.shifted n) name kind location

theorem Fact.shifted_zero (f : Fact) : f.shifted 0 = f := by
  cases f <;> rfl

def Scope.shifted (n : Nat) (s : Scope) : Scope :=
  ⟨s.labels.map fun (name, label) => (name, label.shifted n)⟩

theorem Scope.lookup_shifted (n : Nat) (s : Scope) (name : Text) :
    (s.shifted n).lookup name = (s.lookup name).map (·.shifted n) :=
  s.lookup_renamed (·.shifted n) name

def Snippet.shifted (n : Nat) (s : Snippet) : Snippet := { s with file := s.file.shifted n }

-- ---------------------------------------------------------------------------
-- Sinks
-- ---------------------------------------------------------------------------

section Sinks

variable {σ τ : Type} {n : Nat} {R : σ → τ → Prop}

/-- The second store takes what the first one takes, `n` labels further, and
they still correspond. -/
def KeepsInStep [FactStore σ] [FactStore τ] (n : Nat) (R : σ → τ → Prop) : Prop :=
  ∀ f, Simulates R Eq (FactStore.write f) (FactStore.write (f.shifted n))

theorem KeepsInStep.writeAll [FactStore σ] [FactStore τ] (h : KeepsInStep n R)
    (facts : List Fact) :
    Simulates R Eq (FactStore.writeAll facts) (FactStore.writeAll (facts.map (·.shifted n))) := by
  induction facts with
  | nil => exact Simulates.pure rfl
  | cons f facts ih => exact (h f).bind fun _ _ _ => ih

/-- The second sink is `n` labels ahead, in front of a store that corresponds. -/
structure Ahead (n : Nat) (R : σ → τ → Prop) (s : Sink σ) (s' : Sink τ) : Prop where
  labels : s'.lastLabel = s.lastLabel + n
  stores : R s.store s'.store

/-- Two workspaces, the second with further labels, also in its scope. -/
structure WorkAhead (n : Nat) (R : σ → τ → Prop) (w : Workspace σ) (w' : Workspace τ) : Prop where
  scope : w'.scope = w.scope.shifted n
  sink : Ahead n R w.sink w'.sink

/-- The second label is `n` ahead. -/
abbrev LabelAhead (n : Nat) (l l' : Label) : Prop := l' = l.shifted n

/-- Two drafts with the same facts in front of stores that correspond. -/
structure DraftsAhead (n : Nat) (R : σ → τ → Prop) (d : Draft σ) (d' : Draft τ) : Prop where
  targets : R d.target d'.target
  pending : d'.pending = d.pending.map (·.shifted n)

theorem keepsInStep_drafts (n : Nat) (R : σ → τ → Prop) : KeepsInStep n (DraftsAhead n R) := by
  intro f d d' h
  refine .ok rfl ⟨h.targets, ?_⟩
  show d'.pending ++ [f.shifted n] = (d.pending ++ [f]).map _
  rw [h.pending, List.map_append, List.map_singleton]

end Sinks

-- ---------------------------------------------------------------------------
-- Steps
-- ---------------------------------------------------------------------------

section Steps

variable {σ τ ε ε' α α' : Type} {n : Nat} {R : σ → τ → Prop} {V : α → α' → Prop}

open Workspace

theorem simulates_sinkFresh :
    Simulates (ε := ε) (Ahead n R) (LabelAhead n) Sink.fresh Sink.fresh := by
  intro s s' h
  have hnext : s'.lastLabel + 1 = s.lastLabel + 1 + n := by
    rw [h.labels]
    omega
  exact .ok (congrArg Label.mk hnext) ⟨hnext, h.stores⟩

/-- Notes are not compared. -/
theorem simulates_sinkNote (level level' : NoteLevel) (message message' : String) :
    Simulates (ε := ε) (Ahead n R) Eq (Sink.note level message) (Sink.note level' message') :=
  fun _ _ h => .ok rfl ⟨h.labels, h.stores⟩

theorem simulates_onStore {action : EStateM ε σ α} {action' : EStateM ε τ α'}
    (h : Simulates R V action action') :
    Simulates (Ahead n R) V (Sink.onStore action) (Sink.onStore action') := by
  intro s s' hs
  have hends := h s.store s'.store hs.stores
  rw [Sink.onStore, Sink.onStore]
  generalize action s.store = r, action' s'.store = r' at hends ⊢
  cases hends with
  | ok ha ht => exact .ok ha ⟨hs.labels, ht⟩
  | error e ht => exact .error e ⟨hs.labels, ht⟩

theorem simulates_onSink {action : EStateM ε (Sink σ) α} {action' : EStateM ε (Sink τ) α'}
    (h : Simulates (Ahead n R) V action action') :
    Simulates (WorkAhead n R) V (onSink action) (onSink action') := by
  intro w w' hw
  have hends := h w.sink w'.sink hw.sink
  rw [onSink, onSink]
  generalize action w.sink = r, action' w'.sink = r' at hends ⊢
  cases hends with
  | ok ha ht => exact .ok ha ⟨hw.scope, ht⟩
  | error e ht => exact .error e ⟨hw.scope, ht⟩

theorem simulates_note (level level' : NoteLevel) (message message' : String) :
    Simulates (ε := ε) (WorkAhead n R) Eq (note level message) (note level' message') :=
  simulates_onSink (simulates_sinkNote level level' message message')

theorem simulates_ofExcept (failed : ε' → ε) (x : Except ε' α) :
    Simulates (WorkAhead n R) Eq (ofExcept failed x) (ofExcept failed x) := by
  intro w w' hw
  cases x with
  | ok a => exact .ok rfl hw
  | error e => exact .error (failed e) hw

/-- A name is in scope in both runs or in none, so both take a label or none. -/
theorem simulates_declare (name : Text) :
    Simulates (ε := ε) (WorkAhead n R) (LabelAhead n) (declare name) (declare name) := by
  intro w w' hw
  rw [declare_eq, declare_eq, hw.scope, Scope.lookup_shifted]
  cases w.scope.lookup name with
  | some label => exact .ok rfl hw
  | none =>
    have hnext : w'.sink.lastLabel + 1 = w.sink.lastLabel + 1 + n := by
      rw [hw.sink.labels]
      omega
    refine .ok (congrArg Label.mk hnext) ⟨?_, hnext, hw.sink.stores⟩
    rw [hnext]
    rfl

/-- Both scopes are empty when they are new. -/
theorem simulates_withFreshScope {work : EStateM ε (Workspace σ) α}
    {work' : EStateM ε (Workspace τ) α'} (h : Simulates (WorkAhead n R) V work work') :
    Simulates (Ahead n R) V (withFreshScope work) (withFreshScope work') := by
  intro s s' hs
  have hends := h { sink := s } { sink := s' } ⟨rfl, hs⟩
  rw [withFreshScope, withFreshScope]
  generalize work { sink := s } = r, work' { sink := s' } = r' at hends ⊢
  cases hends with
  | ok ha ht => exact .ok ha ht.sink
  | error e ht => exact .error e ht.sink

/-- What the drafts hold is written to both stores, or dropped. -/
theorem simulates_transaction [FactStore σ] [FactStore τ] (hstep : KeepsInStep n R)
    (failed : WriteError → ε) {work : EStateM ε (Sink (Draft σ)) α}
    {work' : EStateM ε (Sink (Draft τ)) α'} (h : Simulates (Ahead n (DraftsAhead n R)) V work work') :
    Simulates (Ahead n R) V (Sink.transaction failed work) (Sink.transaction failed work') := by
  intro s s' hs
  have hends := h s.openDraft s'.openDraft ⟨hs.labels, hs.stores, rfl⟩
  rw [Sink.transaction, Sink.transaction]
  generalize work s.openDraft = r, work' s'.openDraft = r' at hends ⊢
  cases hends with
  | error e ht => exact .error e ⟨ht.labels, ht.stores.targets⟩
  | @ok a a' t t' ha ht =>
    have hcommit := simulates_onStore (n := n) (hstep.writeAll t.store.pending) t.dropDraft
      t'.dropDraft ⟨ht.labels, ht.stores.targets⟩
    rw [← ht.stores.pending, ← Sink.commit, ← Sink.commit] at hcommit
    dsimp only
    generalize t.commit = r, t'.commit = r' at hcommit ⊢
    cases hcommit with
    | ok _ hu => exact .ok ha hu
    | error e hu => exact .error (failed e) hu

end Steps

-- ---------------------------------------------------------------------------
-- Extractions
-- ---------------------------------------------------------------------------

section Extractions

variable {σ τ : Type} [FactStore σ] [FactStore τ] {n : Nat} {R : σ → τ → Prop}
  (hstep : KeepsInStep n R)

open Workspace

include hstep

theorem simulates_sinkEmit (f : Fact) :
    Simulates (Ahead n R) Eq (Sink.emit f) (Sink.emit (f.shifted n)) :=
  simulates_onStore (hstep f)

theorem simulates_emit (f : Fact) :
    Simulates (WorkAhead n R) Eq (emit f) (emit (f.shifted n)) :=
  (simulates_onSink (simulates_sinkEmit hstep f)).adaptExcept _

theorem simulates_emitAt (s : Snippet) (place : Location) {fact fact' : Label → Location → Fact}
    (hfact : ∀ label location, fact' (label.shifted n) location = (fact label location).shifted n) :
    Simulates (WorkAhead n R) Eq (emitAt s place fact) (emitAt (s.shifted n) place fact') := by
  refine (simulates_onSink simulates_sinkFresh).bind ?_
  rintro label _ rfl
  refine (simulates_ofExcept _ _).bind_same fun location => ?_
  rw [hfact]
  exact simulates_emit hstep (fact label location)

theorem simulates_emitLine (s : Snippet) (topLevel : Label) (number : Nat) (line : IndexedLine) :
    Simulates (WorkAhead n R) Eq (emitLine s topLevel number line)
      (emitLine (s.shifted n) (topLevel.shifted n) number line) :=
  simulates_emitAt hstep s _ fun _ _ => rfl

theorem simulates_emitComment (s : Snippet) (topLevel : Label) (comment : Token) :
    Simulates (WorkAhead n R) Eq (emitComment s (.ofText s.text) topLevel comment)
      (emitComment (s.shifted n) (.ofText s.text) (topLevel.shifted n) comment) :=
  simulates_emitAt hstep s _ fun _ _ => rfl

theorem simulates_emitDeclaration (s : Snippet) (topLevel : Label) (d : Declaration) :
    Simulates (WorkAhead n R) Eq (emitDeclaration s (.ofText s.text) topLevel d)
      (emitDeclaration (s.shifted n) (.ofText s.text) (topLevel.shifted n) d) := by
  refine (simulates_declare d.name).bind ?_
  rintro binding _ rfl
  exact simulates_emitAt hstep s _ fun _ _ => rfl

theorem simulates_emitMembers (options : ExtractionOptions) (s : Snippet) (a : Analysis)
    (topLevel : Label) :
    Simulates (WorkAhead n R) Eq (emitMembers options s a topLevel)
      (emitMembers options (s.shifted n) a (topLevel.shifted n)) := by
  unfold emitMembers
  refine Simulates.bind_same ?_ fun _ =>
    (Simulates.forM (simulates_emitComment hstep s topLevel) _).bind_same fun _ =>
      Simulates.forM (simulates_emitDeclaration hstep s topLevel) _
  split
  · exact Simulates.forM (fun (line, number) => simulates_emitLine hstep s topLevel number line) _
  · exact Simulates.pure rfl

/-- A script of a file with a further label. -/
theorem simulates_extractScript (options : ExtractionOptions) (s : Snippet) :
    Simulates (WorkAhead n R) Eq (extractScript options s) (extractScript options (s.shifted n)) := by
  rw [extractScript_eq, extractScript_eq]
  refine (simulates_ofExcept _ _).bind_same fun a => ?_
  refine (simulates_onSink simulates_sinkFresh).bind ?_
  rintro topLevel _ rfl
  refine (simulates_ofExcept _ _).bind_same fun location => ?_
  have htopLevel := simulates_emit hstep (.topLevel topLevel s.file s.kind a.isModule location)
  exact htopLevel.bind_same fun _ =>
    (simulates_emitMembers hstep options s a topLevel).bind_same fun _ => Simulates.pure rfl

theorem simulates_emitFile (d : Document) :
    Simulates (Ahead n R) (LabelAhead n) (emitFile d) (emitFile d) := by
  refine simulates_sinkFresh.bind ?_
  rintro label _ rfl
  have hfile := simulates_sinkEmit hstep (.file label d.source.path)
  exact (hfile.adaptExcept _).bind_same fun _ => Simulates.pure rfl

theorem simulates_tallyBlock (options : ExtractionOptions) (d : Document) (file : Label)
    (tally : BlockTally) (b : Block) :
    Simulates (WorkAhead n R) Eq (tallyBlock (extractScript options) d file tally b)
      (tallyBlock (extractScript options) d (file.shifted n) tally b) := by
  have hblock : Simulates (WorkAhead n R) Eq (extractBlock (extractScript options) d file b)
      (extractBlock (extractScript options) d (file.shifted n) b) :=
    (simulates_ofExcept _ _).bind_same fun anchor => (simulates_note _ _ _ _).bind_same fun _ =>
      (simulates_extractScript hstep options ⟨b.content, .inlineScript, ⟨anchor⟩, file⟩).adaptExcept _
  unfold tallyBlock
  refine (simulates_note _ _ _ _).bind_same fun _ => ?_
  split
  · exact (simulates_note _ _ _ _).bind_same fun _ => Simulates.pure rfl
  · exact hblock.bind_same fun counts => (simulates_ofExcept _ _).bind_same fun totals =>
      Simulates.pure rfl

/-- A Markdown document, from a sink **further ahead**. -/
theorem simulates_extractMarkdown (options : ExtractionOptions) (d : Document) :
    Simulates (Ahead n R) Eq (extractMarkdown options d) (extractMarkdown options d) := by
  have hdrafts := keepsInStep_drafts n R
  refine simulates_transaction hstep ExtractionFailure.write ?_
  refine (simulates_emitFile hdrafts d).bind ?_
  rintro file _ rfl
  have hblocks := Simulates.foldlM (simulates_tallyBlock hdrafts options.forBlocks d file) {}
    d.scan.blocks
  refine (simulates_withFreshScope hblocks).bind_same fun tally => ?_
  cases d.scan.unclosed? with
  | none => exact (simulates_sinkNote _ _ _ _).bind_same fun _ => Simulates.pure rfl
  | some fence =>
    exact (simulates_sinkNote _ _ _ _).bind_same fun _ =>
      (simulates_sinkNote _ _ _ _).bind_same fun _ => Simulates.pure rfl

/-- A script file, from a sink **further ahead**. -/
theorem simulates_extractScriptFile (options : ExtractionOptions) (d : Document) :
    Simulates (Ahead n R) Eq (extractScriptFile options d) (extractScriptFile options d) := by
  have hdrafts := keepsInStep_drafts n R
  refine simulates_transaction hstep ExtractionFailure.write ?_
  refine (simulates_emitFile hdrafts d).bind ?_
  rintro file _ rfl
  have hscript := simulates_extractScript hdrafts options ⟨d.text, .script, {}, file⟩
  exact simulates_withFreshScope (hscript.adaptExcept _)

end Extractions

end FenceFacts
