import FenceFacts.Extraction.Markdown
import Mathlib.Tactic.Common

/-!
# FenceFacts — runs

An extraction does three things to what it works on: it hands out labels, it
gives variables their labels, and it puts facts into the store.  As long as
the store takes the facts none of this depends on those that are in it
already.  So what an action does is told by what it starts from (the ledger:
last label and scope), how it ends, the ledger afterwards, and the facts it
has emitted.  `RunsTo` says that an action does just that, on every state with
such a ledger, and that it fails if the store does not take the facts.

A transaction runs its work on a draft, which takes every fact, and then
writes the facts to the store, which may not.

## Results

* `RunsTo.bind`, `RunsTo.bind_error` — actions one after the other.
* `RunsTo.of_takesAll`, `RunsTo.of_ok` — on a store that takes every fact, and
  when there is an answer.
* `runs_fresh`, `runs_emit`, `runs_declare`, … — the steps.
* `transaction_delivers`, `transaction_refuses` — transactions.
-/

namespace FenceFacts

-- ---------------------------------------------------------------------------
-- One action after the other
-- ---------------------------------------------------------------------------

theorem bind_of_ok {ε α β S : Type} {m : EStateM ε S α} {a : α} {s s' : S} (h : m s = .ok a s')
    (k : α → EStateM ε S β) : (m >>= k) s = k a s' := by
  show EStateM.bind m k s = _
  rw [EStateM.bind, h]

theorem bind_of_error {ε α β S : Type} {m : EStateM ε S α} {e : ε} {s s' : S}
    (h : m s = .error e s') (k : α → EStateM ε S β) : (m >>= k) s = .error e s' := by
  show EStateM.bind m k s = _
  rw [EStateM.bind, h]

-- ---------------------------------------------------------------------------
-- Stores
-- ---------------------------------------------------------------------------

namespace FactStore

section WriteAll

variable {σ : Type} [FactStore σ]

theorem writeAll_cons (f : Fact) (fs : List Fact) (s : σ) :
    writeAll (f :: fs) s =
      match write f s with
      | .ok _ s' => writeAll fs s'
      | .error e s' => .error e s' := by
  show (do write f; writeAll fs : EStateM WriteError σ Unit) s = _
  simp only [bind, EStateM.bind]
  cases write f s <;> rfl

theorem writeAll_singleton (f : Fact) (s : σ) : writeAll [f] s = write f s := by
  rw [writeAll_cons]
  cases write f s <;> rfl

theorem writeAll_append (fs gs : List Fact) (s : σ) :
    writeAll (fs ++ gs) s =
      match writeAll fs s with
      | .ok _ s' => writeAll gs s'
      | .error e s' => .error e s' := by
  induction fs generalizing s with
  | nil => rfl
  | cons f fs ih =>
    rw [List.cons_append, writeAll_cons, writeAll_cons]
    cases write f s with
    | ok _ s' => exact ih s'
    | error e s' => rfl

theorem writeAll_append_of_ok {fs gs : List Fact} {s s' : σ} (h : writeAll fs s = .ok () s') :
    writeAll (fs ++ gs) s = writeAll gs s' := by
  rw [writeAll_append, h]

/-- From this state on the store takes every fact. -/
def TakesAll (s : σ) : Prop := ∀ facts, ∃ s', writeAll facts s = .ok () s'

theorem TakesAll.after {s s' : σ} (hs : TakesAll s) {fs : List Fact}
    (h : writeAll fs s = .ok () s') : TakesAll s' := by
  intro gs
  obtain ⟨s'', hgs⟩ := hs (fs ++ gs)
  exact ⟨s'', (writeAll_append_of_ok h).symm.trans hgs⟩

/-- A store takes every fact if it takes one and is as it was in what lets it. -/
theorem takesAll_of_step {P : σ → Prop}
    (step : ∀ f s, P s → ∃ s', write f s = .ok () s' ∧ P s') {s : σ} (hs : P s) : TakesAll s := by
  intro fs
  induction fs generalizing s with
  | nil => exact ⟨s, rfl⟩
  | cons f fs ih =>
    obtain ⟨s', hwrite, hs'⟩ := step f s hs
    obtain ⟨s'', hrest⟩ := ih hs'
    refine ⟨s'', ?_⟩
    rw [writeAll_cons, hwrite]
    exact hrest

end WriteAll

/-- A device without a limit takes every fact. -/
theorem takesAll_jsonLines {s : JsonLines} (h : s.room = none) : TakesAll s := by
  refine takesAll_of_step (P := fun s : JsonLines => s.room = none) (fun f s hs => ?_) h
  have hfits : s.fitting f.jsonLine.encode = f.jsonLine.encode := by
    rw [JsonLines.fitting, hs]
  refine ⟨{ s with
    accepted := s.accepted ++ f.jsonLine.encode.toArray, written := s.written + 1 }, ?_, hs⟩
  show (JsonLines.append f.jsonLine.encode >>= fun _ => JsonLines.countWritten) s = _
  simp only [bind, EStateM.bind, JsonLines.append, hfits, Nat.lt_irrefl, if_false]
  rfl

theorem writeAll_draft {σ : Type} (d : Draft σ) (fs : List Fact) :
    writeAll fs d = .ok () { d with pending := d.pending ++ fs } := by
  induction fs generalizing d with
  | nil => rw [List.append_nil]; rfl
  | cons f fs ih =>
    rw [writeAll_cons]
    show writeAll fs { d with pending := d.pending ++ [f] } = _
    rw [ih, List.append_assoc]
    rfl

theorem takesAll_draft {σ : Type} (d : Draft σ) : TakesAll d := by
  intro fs
  exact ⟨_, writeAll_draft d fs⟩

/-- What becomes of a draft on which facts have been emitted. -/
theorem draft_eq_of_writeAll {σ : Type} {facts : List Fact} {d d' : Draft σ}
    (h : writeAll facts d = .ok () d') : d' = { d with pending := d.pending ++ facts } := by
  rw [writeAll_draft] at h
  injection h with _ h
  exact h.symm

theorem writeAll_factList (l : FactList) (fs : List Fact) :
    writeAll fs l = .ok () ⟨l.facts ++ fs⟩ := by
  induction fs generalizing l with
  | nil => rw [List.append_nil]; rfl
  | cons f fs ih =>
    rw [writeAll_cons]
    show writeAll fs (⟨l.facts ++ [f]⟩ : FactList) = _
    rw [ih, List.append_assoc]
    rfl

theorem factList_eq_of_writeAll {facts : List Fact} {l l' : FactList}
    (h : writeAll facts l = .ok () l') : l' = ⟨l.facts ++ facts⟩ := by
  rw [writeAll_factList] at h
  injection h with _ h
  exact h.symm

theorem takesAll_factList (l : FactList) : TakesAll l := by
  intro fs
  exact ⟨_, writeAll_factList l fs⟩

end FactStore

-- ---------------------------------------------------------------------------
-- Ledgers
-- ---------------------------------------------------------------------------

/-- The variables known and the labels handed out so far. -/
structure Ledger where
  scope : Scope := {}
  lastLabel : Nat
  deriving DecidableEq, Repr

namespace Ledger

/-- The next label. -/
def next (l : Ledger) : Label := ⟨l.lastLabel + 1⟩

def spend (l : Ledger) : Ledger := { l with lastLabel := l.lastLabel + 1 }

/-- The label of the variable `name`. -/
def binding (l : Ledger) (name : Text) : Label := (l.scope.lookup name).getD l.next

def declare (l : Ledger) (name : Text) : Ledger :=
  match l.scope.lookup name with
  | some _ => l
  | none => { l.spend with scope := l.scope.bind name l.next }

end Ledger

def Workspace.ledger {σ : Type} (w : Workspace σ) : Ledger := ⟨w.scope, w.sink.lastLabel⟩

-- ---------------------------------------------------------------------------
-- Runs
-- ---------------------------------------------------------------------------

/-- The result of an action that ends in state `s`. -/
def resultIn {ε α S : Type} (r : Except ε α) (s : S) : EStateM.Result ε S α :=
  match r with
  | .ok a => .ok a s
  | .error e => .error e s

/-- The action goes from one mark to the other, ends in `result` and emits
`facts`.  If the store does not take them all, the action fails. -/
def RunsTo {σ S Λ ε α : Type} [FactStore σ] (store : S → σ) (mark : S → Λ)
    (action : EStateM ε S α) (before : Λ) (result : Except ε α) (after : Λ)
    (facts : List Fact) : Prop :=
  ∀ s, mark s = before →
    match FactStore.writeAll facts (store s) with
    | .ok _ stored => ∃ s', action s = resultIn result s' ∧ mark s' = after ∧ store s' = stored
    | .error _ _ => ∃ e s', action s = .error e s'

namespace RunsTo

variable {σ S Λ ε ε' α β : Type} [FactStore σ] {store : S → σ} {mark : S → Λ}

/-- On a store that takes every fact nothing else can happen. -/
theorem of_takesAll {action : EStateM ε S α} {l l' : Λ} {r : Except ε α} {facts : List Fact}
    (h : RunsTo store mark action l r l' facts) {s : S} (hs : FactStore.TakesAll (store s))
    (hl : mark s = l) :
    ∃ s', action s = resultIn r s' ∧ mark s' = l' ∧
      FactStore.writeAll facts (store s) = .ok () (store s') := by
  have hrun := h s hl
  obtain ⟨stored, hwrite⟩ := hs facts
  rw [hwrite] at hrun
  obtain ⟨s', hrun, hl', rfl⟩ := hrun
  exact ⟨s', hrun, hl', hwrite⟩

/-- If there is an answer, the store has taken the facts. -/
theorem of_ok {action : EStateM ε S α} {l l' : Λ} {r : Except ε α} {facts : List Fact}
    (h : RunsTo store mark action l r l' facts) {s s' : S} {a : α} (hok : action s = .ok a s')
    (hl : mark s = l) :
    r = .ok a ∧ mark s' = l' ∧ FactStore.writeAll facts (store s) = .ok () (store s') := by
  have hrun := h s hl
  cases hwrite : FactStore.writeAll facts (store s) with
  | error e stored =>
    rw [hwrite] at hrun
    obtain ⟨e, s'', hrun⟩ := hrun
    rw [hok] at hrun
    cases hrun
  | ok _ stored =>
    rw [hwrite] at hrun
    obtain ⟨s'', hrun, hl', rfl⟩ := hrun
    rw [hok] at hrun
    cases r with
    | error e => cases hrun
    | ok a' =>
      cases hrun
      exact ⟨rfl, hl', rfl⟩

theorem pure (a : α) (l : Λ) :
    RunsTo store mark (Pure.pure a : EStateM ε S α) l (.ok a) l [] :=
  fun s hl => ⟨s, rfl, hl, rfl⟩

/-- One action after the other: the facts of both, in order. -/
theorem bind {m : EStateM ε S α} {k : α → EStateM ε S β} {l l' l'' : Λ} {a : α}
    {r : Except ε β} {fs gs : List Fact} (hm : RunsTo store mark m l (.ok a) l' fs)
    (hk : RunsTo store mark (k a) l' r l'' gs) :
    RunsTo store mark (m >>= k) l r l'' (fs ++ gs) := by
  intro s hl
  have hfirst := hm s hl
  rw [FactStore.writeAll_append]
  cases hfs : FactStore.writeAll fs (store s) with
  | error e stored =>
    rw [hfs] at hfirst
    obtain ⟨e, s', hrun⟩ := hfirst
    exact ⟨e, s', bind_of_error hrun k⟩
  | ok _ stored =>
    rw [hfs] at hfirst
    obtain ⟨s', hrun, hl', rfl⟩ := hfirst
    -- the second action goes on where the first one has left the store
    have hsecond := hk s' hl'
    rw [bind_of_ok hrun]
    exact hsecond

theorem bind_pure {m : EStateM ε S α} {l l' : Λ} {a : α} {fs : List Fact}
    (hm : RunsTo store mark m l (.ok a) l' fs) (b : β) :
    RunsTo store mark (m >>= fun _ => Pure.pure b) l (.ok b) l' fs := by
  have h := hm.bind (k := fun _ => Pure.pure b) (pure b l')
  rwa [List.append_nil] at h

/-- An action that runs another one on a part of what it works on, and fails
when that one does, emits the same facts. -/
theorem inside {S' Λ' : Type} {store' : S' → σ} {mark' : S' → Λ'} {m : EStateM ε S α}
    {m' : EStateM ε' S' β} {l l' : Λ} {k k' : Λ'} {r : Except ε α} {r' : Except ε' β}
    {fs : List Fact} (h : RunsTo store mark m l r l' fs) (part : S' → S)
    (hpart : ∀ s, mark' s = k → mark (part s) = l ∧ store (part s) = store' s)
    (hends : ∀ s t, mark' s = k → m (part s) = resultIn r t → mark t = l' →
      ∃ t', m' s = resultIn r' t' ∧ mark' t' = k' ∧ store' t' = store t)
    (hfails : ∀ s e t, m (part s) = .error e t → ∃ e' t', m' s = .error e' t') :
    RunsTo store' mark' m' k r' k' fs := by
  intro s hk
  obtain ⟨hl, hstore⟩ := hpart s hk
  have hrun := h (part s) hl
  rw [hstore] at hrun
  cases hfs : FactStore.writeAll fs (store' s) with
  | error e stored =>
    rw [hfs] at hrun
    obtain ⟨e, t, hrun⟩ := hrun
    exact hfails s e t hrun
  | ok _ stored =>
    rw [hfs] at hrun
    obtain ⟨t, hrun, hl', rfl⟩ := hrun
    exact hends s t hk hrun hl'

/-- Nothing runs after an error. -/
theorem bind_error {m : EStateM ε S α} {k : α → EStateM ε S β} {l l' : Λ} {e : ε}
    {fs : List Fact} (hm : RunsTo store mark m l (.error e) l' fs) :
    RunsTo store mark (m >>= k) l (.error e) l' fs :=
  hm.inside id (fun _ hl => ⟨hl, rfl⟩)
    (fun _ t _ hrun hl' => ⟨t, bind_of_error hrun k, hl', rfl⟩)
    (fun _ e t hrun => ⟨e, t, bind_of_error hrun k⟩)

theorem adaptExcept {m : EStateM ε S α} {l l' : Λ} {r : Except ε α} {fs : List Fact}
    (f : ε → ε') (h : RunsTo store mark m l r l' fs) :
    RunsTo store mark (m.adaptExcept f) l (r.mapError f) l' fs := by
  refine h.inside id (fun _ hl => ⟨hl, rfl⟩) (fun s t _ hrun hl' => ⟨t, ?_, hl', rfl⟩)
    fun s e t hrun => ⟨f e, t, ?_⟩
  · rw [EStateM.adaptExcept, show m s = _ from hrun]
    cases r <;> rfl
  · rw [EStateM.adaptExcept, show m s = _ from hrun]

end RunsTo

/-- What an action does on a workspace. -/
abbrev Runs {σ ε α : Type} [FactStore σ] (action : EStateM ε (Workspace σ) α) (before : Ledger)
    (result : Except ε α) (after : Ledger) (facts : List Fact) : Prop :=
  RunsTo (fun w => w.sink.store) Workspace.ledger action before result after facts

/-- What an action does on a sink. -/
abbrev SinkRuns {σ ε α : Type} [FactStore σ] (action : EStateM ε (Sink σ) α) (before : Nat)
    (result : Except ε α) (after : Nat) (facts : List Fact) : Prop :=
  RunsTo Sink.store Sink.lastLabel action before result after facts

-- ---------------------------------------------------------------------------
-- Steps
-- ---------------------------------------------------------------------------

section Steps

variable {σ ε ε' α : Type} [FactStore σ]

open Workspace

theorem sinkRuns_fresh (last : Nat) :
    SinkRuns (σ := σ) (ε := ε) Sink.fresh last (.ok ⟨last + 1⟩) (last + 1) [] := by
  rintro s rfl
  exact ⟨_, rfl, rfl, rfl⟩

theorem sinkRuns_note (level : NoteLevel) (message : String) (last : Nat) :
    SinkRuns (σ := σ) (ε := ε) (Sink.note level message) last (.ok ()) last [] := by
  rintro s rfl
  exact ⟨_, rfl, rfl, rfl⟩

theorem sinkRuns_emit (f : Fact) (last : Nat) :
    SinkRuns (σ := σ) (Sink.emit f) last (.ok ()) last [f] := by
  rintro s rfl
  rw [FactStore.writeAll_singleton]
  cases hwrite : FactStore.write f s.store with
  | ok _ store =>
    refine ⟨{ s with store }, ?_, rfl, rfl⟩
    simp only [Sink.emit, Sink.onStore, hwrite]
    rfl
  | error e store =>
    refine ⟨e, { s with store }, ?_⟩
    simp only [Sink.emit, Sink.onStore, hwrite]

/-- The scope takes no part in an action of the sink. -/
theorem runs_onSink {action : EStateM ε (Sink σ) α} {l : Ledger} {r : Except ε α} {last : Nat}
    {fs : List Fact} (h : SinkRuns action l.lastLabel r last fs) :
    Runs (onSink action) l r { l with lastLabel := last } fs := by
  refine h.inside Workspace.sink ?_ ?_ fun w e s hrun => ⟨e, { w with sink := s }, ?_⟩
  · rintro w rfl
    exact ⟨rfl, rfl⟩
  · rintro w s rfl hrun rfl
    refine ⟨{ w with sink := s }, ?_, rfl, rfl⟩
    rw [onSink, hrun]
    cases r <;> rfl
  · rw [onSink, hrun]

theorem runs_fresh (l : Ledger) :
    Runs (σ := σ) (ε := ε) fresh l (.ok l.next) l.spend [] :=
  runs_onSink (sinkRuns_fresh l.lastLabel)

theorem runs_note (level : NoteLevel) (message : String) (l : Ledger) :
    Runs (σ := σ) (ε := ε) (note level message) l (.ok ()) l [] :=
  runs_onSink (sinkRuns_note level message l.lastLabel)

theorem runs_emit (f : Fact) (l : Ledger) : Runs (σ := σ) (emit f) l (.ok ()) l [f] :=
  (runs_onSink (sinkRuns_emit f l.lastLabel)).adaptExcept SnippetFailure.write

theorem runs_ofExcept_ok {x : Except ε' α} {a : α} (h : x = .ok a) (failed : ε' → ε) (l : Ledger) :
    Runs (σ := σ) (ofExcept failed x) l (.ok a) l [] := by
  rintro w rfl
  subst h
  exact ⟨w, rfl, rfl, rfl⟩

theorem runs_ofExcept_error {x : Except ε' α} {e : ε'} (h : x = .error e) (failed : ε' → ε)
    (l : Ledger) : Runs (σ := σ) (ofExcept failed x) l (.error (failed e)) l [] := by
  rintro w rfl
  subst h
  exact ⟨w, rfl, rfl, rfl⟩

omit [FactStore σ] in
/-- A name in scope has its label, another one takes the next label. -/
theorem declare_eq (name : Text) (w : Workspace σ) :
    declare (ε := ε) name w =
      match w.scope.lookup name with
      | some label => .ok label w
      | none => .ok ⟨w.sink.lastLabel + 1⟩
          ⟨w.scope.bind name ⟨w.sink.lastLabel + 1⟩,
            { w.sink with lastLabel := w.sink.lastLabel + 1 }⟩ := by
  have hread : declare (ε := ε) name w =
      (match w.scope.lookup name with
      | some label => return label
      | none => do
        let label ← fresh
        modify fun w => { w with scope := w.scope.bind name label }
        return label : EStateM ε (Workspace σ) Label) w := rfl
  rw [hread]
  cases w.scope.lookup name with
  | some label => rfl
  | none => rfl

theorem runs_declare (name : Text) (l : Ledger) :
    Runs (σ := σ) (ε := ε) (declare name) l (.ok (l.binding name)) (l.declare name) [] := by
  rintro w rfl
  have hscope : w.ledger.scope = w.scope := rfl
  unfold Ledger.binding Ledger.declare
  rw [declare_eq, hscope]
  cases w.scope.lookup name with
  | some label => exact ⟨w, rfl, rfl, rfl⟩
  | none => exact ⟨_, rfl, rfl, rfl⟩

/-- Work with a scope of its own starts from no variables. -/
theorem sinkRuns_withFreshScope {work : EStateM ε (Workspace σ) α} {last : Nat} {l' : Ledger}
    {r : Except ε α} {fs : List Fact} (h : Runs work ⟨{}, last⟩ r l' fs) :
    SinkRuns (withFreshScope work) last r l'.lastLabel fs := by
  refine h.inside (fun s => { sink := s }) ?_ ?_ fun s e w hrun => ⟨e, w.sink, ?_⟩
  · rintro s rfl
    exact ⟨rfl, rfl⟩
  · rintro s w rfl hrun rfl
    refine ⟨w.sink, ?_, rfl, rfl⟩
    rw [withFreshScope, hrun]
    cases r <;> rfl
  · rw [withFreshScope, hrun]

end Steps

-- ---------------------------------------------------------------------------
-- Transactions
-- ---------------------------------------------------------------------------

section Transactions

variable {σ α : Type} [FactStore σ]

/-- The extraction hands `facts` to the store.  If the store takes them all
the extraction has the answer `a`, otherwise it fails the way the store does.
Labels up to `last` are spent. -/
def Delivers (extraction : EStateM ExtractionFailure (Sink σ) α) (s : Sink σ) (a : α)
    (facts : List Fact) (last : Nat) : Prop :=
  ∃ notes, extraction s =
    match FactStore.writeAll facts s.store with
    | .ok _ store => .ok a ⟨store, last, notes⟩
    | .error e store => .error (.write e) ⟨store, last, notes⟩

/-- The extraction fails and leaves the store alone.  Labels up to `last` are
spent. -/
def Refuses (extraction : EStateM ExtractionFailure (Sink σ) α) (s : Sink σ)
    (e : ExtractionFailure) (last : Nat) : Prop :=
  ∃ notes, extraction s = .error e ⟨s.store, last, notes⟩

variable {work : EStateM ExtractionFailure (Sink (Draft σ)) α} {s : Sink σ} {last : Nat}
  {facts : List Fact}

/-- A transaction whose work succeeds **delivers** the facts that were emitted. -/
theorem transaction_delivers {a : α} (h : SinkRuns work s.lastLabel (.ok a) last facts) :
    Delivers (Sink.transaction .write work) s a facts last := by
  obtain ⟨s', hrun, rfl, hfacts⟩ := h.of_takesAll (FactStore.takesAll_draft s.openDraft.store) rfl
  have hstore : s'.store = ⟨s.store, facts⟩ := FactStore.draft_eq_of_writeAll hfacts
  refine ⟨s'.notes, ?_⟩
  rw [Sink.transaction, hrun]
  simp only [resultIn, Sink.commit, Sink.onStore, Sink.dropDraft, hstore]
  cases FactStore.writeAll facts s.store <;> rfl

/-- A transaction whose work fails **leaves the store alone**. -/
theorem transaction_refuses {e : ExtractionFailure}
    (h : SinkRuns work s.lastLabel (.error e) last facts) :
    Refuses (Sink.transaction .write work) s e last := by
  obtain ⟨s', hrun, rfl, hfacts⟩ := h.of_takesAll (FactStore.takesAll_draft s.openDraft.store) rfl
  have hstore : s'.store = ⟨s.store, facts⟩ := FactStore.draft_eq_of_writeAll hfacts
  refine ⟨s'.notes, ?_⟩
  rw [Sink.transaction, hrun]
  simp only [resultIn, Sink.dropDraft, hstore]

end Transactions

end FenceFacts
