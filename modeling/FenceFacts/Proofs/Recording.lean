import FenceFacts.Proofs.Finding
import FenceFacts.Proofs.Run

/-!
# FenceFacts — recording findings

Recording a finding hands out its label, declares its name if it has one, and
makes it a fact.  The ledger before it and the finding say all there is to
say about that, so the facts of a script are those of its reading, recorded
one after the other.

The extractor for scripts reads a script and records what it has read.  A
script that is rejected leaves no trace.  A location that has no place in the
document is a fault; what was recorded before it is not told.

## Results

* `records_forM`       — findings recorded one after the other.
* `runs_extractScript` — the extractor for scripts.
-/

namespace FenceFacts

-- ---------------------------------------------------------------------------
-- Recorded findings
-- ---------------------------------------------------------------------------

namespace Ledger

def declareItem (l : Ledger) : Item → Ledger
  | .declaration name _ => l.declare name
  | _ => l

def record (l : Ledger) (f : Finding) : Ledger := (l.declareItem f.item).spend

def recordAll (l : Ledger) (fs : List Finding) : Ledger := fs.foldl record l

def factOf (l : Ledger) (topLevel : Label) (f : Finding) : Fact :=
  let label := (l.declareItem f.item).next
  match f.item with
  | .line text terminator => .line label topLevel text terminator f.location
  | .comment text => .comment label topLevel text f.location
  | .declaration name kind => .declaration label topLevel (l.binding name) name kind f.location

/-- The facts that the findings become, one after the other. -/
def factsOf (l : Ledger) (topLevel : Label) : List Finding → List Fact
  | [] => []
  | f :: fs => l.factOf topLevel f :: (l.record f).factsOf topLevel fs

theorem recordAll_append (l : Ledger) (fs gs : List Finding) :
    l.recordAll (fs ++ gs) = (l.recordAll fs).recordAll gs :=
  List.foldl_append

theorem factsOf_append (l : Ledger) (topLevel : Label) (fs gs : List Finding) :
    l.factsOf topLevel (fs ++ gs) =
      l.factsOf topLevel fs ++ (l.recordAll fs).factsOf topLevel gs := by
  induction fs generalizing l with
  | nil => rfl
  | cons f fs ih =>
    rw [List.cons_append, factsOf, ih, factsOf, List.cons_append]
    rfl

theorem exists_of_mem_factsOf {l : Ledger} {topLevel : Label} {fs : List Finding} {fact : Fact}
    (h : fact ∈ l.factsOf topLevel fs) : ∃ f ∈ fs, ∃ l' : Ledger, fact = l'.factOf topLevel f := by
  induction fs generalizing l with
  | nil => exact absurd h List.not_mem_nil
  | cons f fs ih =>
    rcases List.mem_cons.mp h with rfl | h
    · exact ⟨f, List.mem_cons_self, l, rfl⟩
    · obtain ⟨g, hg, hl'⟩ := ih h
      exact ⟨g, List.mem_cons_of_mem f hg, hl'⟩

section Map

variable {φ : Finding → Finding} (hrecord : ∀ (l : Ledger) f, l.record (φ f) = l.record f)

include hrecord

theorem recordAll_map (l : Ledger) (fs : List Finding) :
    l.recordAll (fs.map φ) = l.recordAll fs := by
  rw [recordAll, List.foldl_map]
  simp only [hrecord]
  rfl

/-- Findings that are recorded in the same way become the same facts, but for
what they say themselves. -/
theorem factsOf_map {ψ : Fact → Fact} {topLevel : Label}
    (hfact : ∀ (l : Ledger) f, l.factOf topLevel (φ f) = ψ (l.factOf topLevel f)) (l : Ledger)
    (fs : List Finding) :
    l.factsOf topLevel (fs.map φ) = (l.factsOf topLevel fs).map ψ := by
  induction fs generalizing l with
  | nil => rfl
  | cons f fs ih => rw [List.map_cons, factsOf, factsOf, List.map_cons, hrecord, ih, hfact]

end Map

def recordReading (l : Ledger) (r : Reading) : Ledger := l.spend.recordAll r.members

def readingFacts (l : Ledger) (file : Label) (kind : TopLevelKind) (r : Reading) : List Fact :=
  .topLevel l.next file kind r.isModule r.body :: l.spend.factsOf l.next r.members

end Ledger

-- ---------------------------------------------------------------------------
-- Actions that record
-- ---------------------------------------------------------------------------

section Records

variable {σ α : Type} [FactStore σ] {topLevel : Label} {t : Translator}

open Workspace

/-- The action records the findings, each at its place in the document, unless
one has no place there. -/
def Records (action : EStateM SnippetFailure (Workspace σ) Unit) (t : Translator)
    (topLevel : Label) (fs : List Finding) : Prop :=
  ∀ l, match fs.mapM (·.translated t) with
    | .ok gs => Runs action l (.ok ()) (l.recordAll gs) (l.factsOf topLevel gs)
    | .error e => ∃ l' facts, Runs action l (.error (.fault e)) l' facts

theorem records_nil :
    Records (pure () : EStateM SnippetFailure (Workspace σ) Unit) t topLevel [] :=
  fun l => RunsTo.pure () l

/-- One action after the other records the findings of both. -/
theorem Records.append {first second : EStateM SnippetFailure (Workspace σ) Unit}
    {fs gs : List Finding} (hfirst : Records first t topLevel fs)
    (hsecond : Records second t topLevel gs) :
    Records (first >>= fun _ => second) t topLevel (fs ++ gs) := by
  intro l
  have hfirst := hfirst l
  rw [List.mapM_append]
  cases hfs : fs.mapM (·.translated t) with
  | error e =>
    rw [hfs] at hfirst
    obtain ⟨l', facts, hrun⟩ := hfirst
    exact ⟨l', facts, hrun.bind_error⟩
  | ok fs' =>
    rw [hfs] at hfirst
    have hsecond := hsecond (l.recordAll fs')
    cases hgs : gs.mapM (·.translated t) with
    | error e =>
      rw [hgs] at hsecond
      obtain ⟨l', facts, hrun⟩ := hsecond
      exact ⟨l', _, hfirst.bind hrun⟩
    | ok gs' =>
      rw [hgs] at hsecond
      show Runs _ l _ (l.recordAll (fs' ++ gs')) (l.factsOf topLevel (fs' ++ gs'))
      rw [Ledger.recordAll_append, Ledger.factsOf_append]
      exact hfirst.bind hsecond

/-- The findings of a list, **recorded one after the other**. -/
theorem records_forM {xs : List α} {act : α → EStateM SnippetFailure (Workspace σ) Unit}
    {finding : α → Finding} (h : ∀ x, Records (act x) t topLevel [finding x]) :
    Records (xs.forM act) t topLevel (xs.map finding) := by
  induction xs with
  | nil => exact records_nil
  | cons x xs ih => exact (h x).append ih

end Records

-- ---------------------------------------------------------------------------
-- Single findings
-- ---------------------------------------------------------------------------

section Single

variable {σ : Type} [FactStore σ] {s : Snippet} {place : Location}

open Workspace

/-- A fact with a label of its own, at a place of the snippet. -/
def emitAt (s : Snippet) (place : Location) (fact : Label → Location → Fact) :
    EStateM SnippetFailure (Workspace σ) Unit := do
  let label ← fresh
  let location ← s.locate place
  emit (fact label location)

theorem runs_emitAt {location : Location} (h : s.translator.translateLocation place = .ok location)
    (fact : Label → Location → Fact) (l : Ledger) :
    Runs (σ := σ) (emitAt s place fact) l (.ok ()) l.spend [fact l.next location] :=
  (runs_fresh l).bind ((runs_ofExcept_ok h SnippetFailure.fault l.spend).bind (runs_emit _ l.spend))

theorem runs_emitAt_error {e : Fault} (h : s.translator.translateLocation place = .error e)
    (fact : Label → Location → Fact) (l : Ledger) :
    Runs (σ := σ) (emitAt s place fact) l (.error (.fault e)) l.spend [] :=
  (runs_fresh l).bind (runs_ofExcept_error h SnippetFailure.fault l.spend).bind_error

/-- An item is recorded once its name is declared and its fact emitted. -/
theorem records_emitAt {α : Type} (declared : EStateM SnippetFailure (Workspace σ) α)
    (fact : α → Label → Location → Fact) {value : Ledger → α} {item : Item} {topLevel : Label}
    (hdeclared : ∀ l, Runs declared l (.ok (value l)) (l.declareItem item) [])
    (hfact : ∀ (l : Ledger) location,
      l.factOf topLevel ⟨item, location⟩ = fact (value l) (l.declareItem item).next location) :
    Records (declared >>= fun a => emitAt s place (fact a)) s.translator topLevel
      [⟨item, place⟩] := by
  intro l
  have hbind {r l' facts}
      (hemit : Runs (emitAt s place (fact (value l))) (l.declareItem item) r l' facts) :
      Runs (declared >>= fun a => emitAt s place (fact a)) l r l' facts :=
    (hdeclared l).bind hemit
  rw [List.mapM_cons, List.mapM_nil, Finding.translated]
  cases h : s.translator.translateLocation place with
  | ok location =>
    have hrun := hbind (runs_emitAt h (fact (value l)) _)
    rw [← hfact] at hrun
    exact hrun
  | error e => exact ⟨_, _, hbind (runs_emitAt_error h (fact (value l)) _)⟩

theorem records_emitLine (s : Snippet) (topLevel : Label) (number : Nat) (line : IndexedLine) :
    Records (σ := σ) (emitLine s topLevel number line) s.translator topLevel
      [.ofLine number line] :=
  records_emitAt (pure ()) (fun _ => (.line · topLevel line.text line.terminator ·))
    (RunsTo.pure ()) fun _ _ => rfl

theorem records_emitComment (s : Snippet) (topLevel : Label) (comment : Token) :
    Records (σ := σ) (emitComment s (.ofText s.text) topLevel comment) s.translator topLevel
      [.ofComment s.text (.ofText s.text) comment] :=
  records_emitAt (pure ()) (fun _ => (.comment · topLevel comment.text ·)) (RunsTo.pure ())
    fun _ _ => rfl

theorem records_emitDeclaration (s : Snippet) (topLevel : Label) (d : Declaration) :
    Records (σ := σ) (emitDeclaration s (.ofText s.text) topLevel d) s.translator topLevel
      [.ofDeclaration s.text (.ofText s.text) d] :=
  records_emitAt (declare d.name) (fun binding => (.declaration · topLevel binding d.name d.kind ·))
    (runs_declare d.name) fun _ _ => rfl

end Single

-- ---------------------------------------------------------------------------
-- Scripts
-- ---------------------------------------------------------------------------

/-- What is read of a snippet, at its place in the document. -/
def readScript (options : ExtractionOptions) (text : Text) (t : Translator) :
    Except SnippetFailure Reading :=
  match analyze options.toAnalysisOptions text with
  | .error e => .error (.parse (e.located (.ofText text)))
  | .ok a => ((Reading.ofScript options text a).translated t).mapError .fault

/-- What is read is what the analysis of the script has found. -/
theorem exists_of_readScript_ok {options : ExtractionOptions} {text : Text} {t : Translator}
    {r : Reading} (h : readScript options text t = .ok r) :
    ∃ a, analyze options.toAnalysisOptions text = .ok a ∧
      (Reading.ofScript options text a).translated t = .ok r := by
  rw [readScript] at h
  cases ha : analyze options.toAnalysisOptions text with
  | error e =>
    rw [ha] at h
    cases h
  | ok a =>
    refine ⟨a, rfl, ?_⟩
    rw [ha] at h
    dsimp only at h
    cases hr : (Reading.ofScript options text a).translated t with
    | error e =>
      rw [hr] at h
      cases h
    | ok r' =>
      rw [hr] at h
      exact congrArg Except.ok (Except.ok.inj h)

section Script

variable {σ : Type} [FactStore σ]

open Workspace

theorem records_lines (s : Snippet) (topLevel : Label) (lines : List (IndexedLine × Nat)) :
    Records (σ := σ) (lines.forM fun (line, number) => emitLine s topLevel number line)
      s.translator topLevel (lines.map fun (line, number) => .ofLine number line) :=
  records_forM fun (line, number) => records_emitLine s topLevel number line

theorem records_comments (s : Snippet) (topLevel : Label) (comments : List Token) :
    Records (σ := σ) (comments.forM (emitComment s (.ofText s.text) topLevel))
      s.translator topLevel (comments.map (.ofComment s.text (.ofText s.text))) :=
  records_forM fun comment => records_emitComment s topLevel comment

theorem records_declarations (s : Snippet) (topLevel : Label) (ds : List Declaration) :
    Records (σ := σ) (ds.forM (emitDeclaration s (.ofText s.text) topLevel))
      s.translator topLevel (ds.map (.ofDeclaration s.text (.ofText s.text))) :=
  records_forM fun d => records_emitDeclaration s topLevel d

/-- The facts after the one for the top level. -/
def emitMembers (options : ExtractionOptions) (s : Snippet) (a : Analysis) (topLevel : Label) :
    EStateM SnippetFailure (Workspace σ) Unit := do
  let index := LineIndex.ofText s.text
  (if options.extractLines then
    (index.countedLines.zipIdx 1).forM fun (line, number) => emitLine s topLevel number line
  else pure ())
  a.comments.forM (emitComment s index topLevel)
  a.declarations.forM (emitDeclaration s index topLevel)

theorem records_emitMembers (options : ExtractionOptions) (s : Snippet) (a : Analysis)
    (topLevel : Label) :
    Records (σ := σ) (emitMembers options s a topLevel) s.translator topLevel
      (Reading.membersOf options s.text a) := by
  have hrest := (records_comments (σ := σ) s topLevel a.comments).append
    (records_declarations s topLevel a.declarations)
  unfold emitMembers Reading.membersOf
  by_cases h : options.extractLines = true
  · simp only [if_pos h]
    exact (records_lines s topLevel _).append hrest
  · simp only [if_neg h]
    exact records_nil.append hrest

/-- What is emitted once the script has been accepted. -/
def emitAccepted (options : ExtractionOptions) (s : Snippet) (a : Analysis) :
    EStateM SnippetFailure (Workspace σ) LineTotals := do
  let topLevel ← fresh
  let location ← s.locate (Reading.ofScript options s.text a).body
  emit (.topLevel topLevel s.file s.kind a.isModule location)
  emitMembers options s a topLevel
  return a.lines

theorem extractScript_eq (options : ExtractionOptions) (s : Snippet) :
    extractScript (σ := σ) options s =
      ofExcept (fun e => .parse (e.located (.ofText s.text)))
        (analyze options.toAnalysisOptions s.text) >>= emitAccepted options s := by
  unfold extractScript emitAccepted emitMembers
  by_cases h : options.extractLines = true
  · simp only [if_pos h, bind_assoc]
    rfl
  · simp only [if_neg h, bind_assoc, pure_bind]
    rfl

theorem runs_emitAccepted (options : ExtractionOptions) (s : Snippet) (a : Analysis) (l : Ledger) :
    match (Reading.ofScript options s.text a).translated s.translator with
    | .ok r => Runs (σ := σ) (emitAccepted options s a) l (.ok r.lines) (l.recordReading r)
        (l.readingFacts s.file s.kind r)
    | .error e => ∃ l' facts,
        Runs (σ := σ) (emitAccepted options s a) l (.error (.fault e)) l' facts := by
  have hmembers := records_emitMembers (σ := σ) options s a l.next l.spend
  rw [Reading.translated]
  cases hbody : s.translator.translateLocation (Reading.ofScript options s.text a).body with
  | error e =>
    exact ⟨_, _, (runs_fresh l).bind
      (runs_ofExcept_error hbody SnippetFailure.fault l.spend).bind_error⟩
  | ok body =>
    have hlocate := runs_ofExcept_ok (σ := σ) hbody SnippetFailure.fault l.spend
    have hrest {r l' facts} (hrun : Runs (σ := σ) (do
        emitMembers options s a l.next
        return a.lines) l.spend r l' facts) :
        Runs (emitAccepted options s a) l r l'
          (.topLevel l.next s.file s.kind a.isModule body :: facts) :=
      (runs_fresh l).bind (hlocate.bind ((runs_emit _ l.spend).bind hrun))
    have hof : (Reading.ofScript options s.text a).members = Reading.membersOf options s.text a := rfl
    rw [hof]
    cases hms : (Reading.membersOf options s.text a).mapM (·.translated s.translator) with
    | error e =>
      rw [hms] at hmembers
      obtain ⟨l', facts, hrun⟩ := hmembers
      exact ⟨l', _, hrest hrun.bind_error⟩
    | ok members =>
      rw [hms] at hmembers
      exact hrest (hmembers.bind_pure a.lines)

/-- The extractor for scripts **records what is read** of the script. -/
theorem runs_extractScript (options : ExtractionOptions) (s : Snippet) (l : Ledger) :
    match readScript options s.text s.translator with
    | .ok r => Runs (σ := σ) (extractScript options s) l (.ok r.lines) (l.recordReading r)
        (l.readingFacts s.file s.kind r)
    | .error (.fault e) => ∃ l' facts,
        Runs (σ := σ) (extractScript options s) l (.error (.fault e)) l' facts
    | .error e => Runs (σ := σ) (extractScript options s) l (.error e) l [] := by
  rw [extractScript_eq, readScript]
  cases ha : analyze options.toAnalysisOptions s.text with
  | error e => exact (runs_ofExcept_error rfl _ l).bind_error
  | ok a =>
    have hanalysis := runs_ofExcept_ok (σ := σ) (x := .ok a) rfl
      (fun e : ScriptError => SnippetFailure.parse (e.located (.ofText s.text))) l
    have haccepted := runs_emitAccepted (σ := σ) options s a l
    dsimp only
    cases hr : (Reading.ofScript options s.text a).translated s.translator with
    | error e =>
      rw [hr] at haccepted
      obtain ⟨l', facts, hrun⟩ := haccepted
      exact ⟨l', _, hanalysis.bind hrun⟩
    | ok r =>
      rw [hr] at haccepted
      exact hanalysis.bind haccepted

end Script

end FenceFacts
