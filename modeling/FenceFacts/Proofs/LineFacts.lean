import FenceFacts.Proofs.Recording
import Mathlib.Data.List.Forall2

/-!
# FenceFacts — the facts of lines

An extraction that wants lines makes a fact of each of them.  The facts tell
where a line stands and how it is divided into its text and its terminator, so
the snippet can be put together again from them: nothing is lost between the
lines, and only the division into text and terminator is up to the index.

## Results

* `exists_reading_of_extractScript` — an extraction with an answer has recorded
  the reading of its snippet.
* `exists_facts_of_extractScript` — there is a fact for every line.
* `line_facts_reconstruct` — the facts make up the snippet.
-/

namespace FenceFacts

open Text

-- ---------------------------------------------------------------------------
-- What a fact says of a line
-- ---------------------------------------------------------------------------

/-- What a fact says of a line. -/
structure LineFact where
  text : Text
  terminator : Text
  location : Location
  deriving DecidableEq, Repr

namespace LineFact

/-- The characters of the line, its end included. -/
def whole (m : LineFact) : Text := m.text ++ m.terminator

/-- What there is to say of a line of a snippet. -/
def ofLine (number : Nat) (line : IndexedLine) : LineFact :=
  ⟨line.text, line.terminator, lineLocation number line.text⟩

/-- `m` says what `l` does, with the location carried over to the document. -/
structure PlacedBy (t : Translator) (l m : LineFact) : Prop where
  text : m.text = l.text
  terminator : m.terminator = l.terminator
  location : t.translateLocation l.location = .ok m.location

end LineFact

def Fact.line? : Fact → Option LineFact
  | .line _ _ text terminator location => some ⟨text, terminator, location⟩
  | _ => none

/-- What the facts say of lines, in order. -/
def lineFacts (facts : List Fact) : List LineFact := facts.filterMap Fact.line?

def Finding.line? (f : Finding) : Option LineFact :=
  match f.item with
  | .line text terminator => some ⟨text, terminator, f.location⟩
  | _ => none

/-- The facts say, line by line, what there is to say of the lines of a
snippet. -/
def LinesPlacedBy (t : Translator) (text : Text) (ms : List LineFact) : Prop :=
  List.Forall₂ (fun x m => LineFact.PlacedBy t (.ofLine x.2 x.1) m)
    ((LineIndex.ofText text).countedLines.zipIdx 1) ms

-- ---------------------------------------------------------------------------
-- From findings to facts
-- ---------------------------------------------------------------------------

theorem Ledger.line?_factOf (l : Ledger) (topLevel : Label) (f : Finding) :
    (l.factOf topLevel f).line? = f.line? := by
  obtain ⟨item, location⟩ := f
  cases item <;> rfl

theorem Ledger.lineFacts_factsOf (l : Ledger) (topLevel : Label) (fs : List Finding) :
    lineFacts (l.factsOf topLevel fs) = fs.filterMap Finding.line? := by
  induction fs generalizing l with
  | nil => rfl
  | cons f fs ih =>
    rw [lineFacts, factsOf, List.filterMap_cons, line?_factOf, List.filterMap_cons, ← lineFacts, ih]

/-- The fact for the top level says nothing of lines. -/
theorem Ledger.lineFacts_readingFacts (l : Ledger) (file : Label) (kind : TopLevelKind)
    (r : Reading) :
    lineFacts (l.readingFacts file kind r) = r.members.filterMap Finding.line? :=
  l.spend.lineFacts_factsOf l.next r.members

namespace Finding

variable {t : Translator} {fs gs : List Finding} {f g : Finding}

theorem placedBy_of_translated (h : f.translated t = .ok g) :
    (f.line? = none ∧ g.line? = none) ∨
      ∃ l m, f.line? = some l ∧ g.line? = some m ∧ LineFact.PlacedBy t l m := by
  obtain ⟨location, hlocation, rfl⟩ := exists_of_translated_ok h
  obtain ⟨item, place⟩ := f
  cases item with
  | line text terminator => exact Or.inr ⟨_, _, rfl, rfl, rfl, rfl, hlocation⟩
  | comment text => exact Or.inl ⟨rfl, rfl⟩
  | declaration name kind => exact Or.inl ⟨rfl, rfl⟩

/-- What is said of lines is placed **line by line**. -/
theorem forall₂_lines (h : fs.mapM (·.translated t) = .ok gs) :
    List.Forall₂ (LineFact.PlacedBy t) (fs.filterMap line?) (gs.filterMap line?) := by
  have hplaced := forall₂_translated h
  clear h
  induction hplaced with
  | nil => exact .nil
  | cons hf _ ih =>
    rcases placedBy_of_translated hf with ⟨hl, hm⟩ | ⟨l, m, hl, hm, hplaced⟩
    · rwa [List.filterMap_cons_none hl, List.filterMap_cons_none hm]
    · rw [List.filterMap_cons_some hl, List.filterMap_cons_some hm]
      exact .cons hplaced ih

end Finding

theorem filterMap_line?_map {α : Type} {finding : α → Finding} {xs : List α}
    (h : ∀ x, (finding x).line? = none) : (xs.map finding).filterMap Finding.line? = [] := by
  rw [List.filterMap_map, List.filterMap_eq_nil_iff]
  exact fun x _ => h x

/-- Comments and declarations say nothing of lines. -/
theorem Reading.filterMap_line?_members {options : ExtractionOptions}
    (hlines : options.extractLines = true) (text : Text) (a : Analysis) :
    (ofScript options text a).members.filterMap Finding.line? =
      ((LineIndex.ofText text).countedLines.zipIdx 1).map
        fun (line, number) => LineFact.ofLine number line := by
  have hrest : (a.comments.map (Finding.ofComment text (.ofText text)) ++
      a.declarations.map (Finding.ofDeclaration text (.ofText text))).filterMap Finding.line? =
        [] := by
    rw [List.filterMap_append, filterMap_line?_map fun _ => rfl, filterMap_line?_map fun _ => rfl]
    rfl
  have hmap := List.filterMap_eq_map (f := fun x : IndexedLine × Nat => LineFact.ofLine x.2 x.1)
  rw [ofScript, membersOf, if_pos hlines, List.filterMap_append, hrest, List.append_nil,
    List.filterMap_map]
  exact congrFun hmap _

-- ---------------------------------------------------------------------------
-- Extractions
-- ---------------------------------------------------------------------------

section Extraction

variable {σ : Type} [FactStore σ] {options : ExtractionOptions} {s : Snippet}
  {w w' : Workspace σ} {totals : LineTotals}

/-- An extraction that has an answer has **recorded the reading** of its
snippet. -/
theorem exists_reading_of_extractScript (h : extractScript options s w = .ok totals w') :
    ∃ r, readScript options s.text s.translator = .ok r ∧ totals = r.lines ∧
      FactStore.writeAll (w.ledger.readingFacts s.file s.kind r) w.sink.store =
        .ok () w'.sink.store := by
  have hruns := runs_extractScript (σ := σ) options s w.ledger
  cases hread : readScript options s.text s.translator with
  | ok r =>
    rw [hread] at hruns
    obtain ⟨hresult, -, hwritten⟩ := RunsTo.of_ok hruns h rfl
    cases hresult
    exact ⟨r, rfl, rfl, hwritten⟩
  | error e =>
    -- an extraction that fails has no answer
    have hfails {l' facts}
        (hrun : Runs (σ := σ) (extractScript options s) w.ledger (.error e) l' facts) : False := by
      obtain ⟨hresult, -⟩ := hrun.of_ok h rfl
      cases hresult
    rw [hread] at hruns
    cases e with
    | fault e =>
      obtain ⟨l', facts, hrun⟩ := hruns
      exact (hfails hrun).elim
    | parse e => exact (hfails hruns).elim
    | write e => exact (hfails hruns).elim

/-- A snippet that can be read has an answer, unless the store refuses a
fact. -/
theorem exists_ok_of_readScript
    (hread : (readScript options s.text s.translator).toOption.isSome = true)
    (hstore : FactStore.TakesAll w.sink.store) :
    ∃ totals w', extractScript options s w = .ok totals w' := by
  have hruns := runs_extractScript (σ := σ) options s w.ledger
  cases hr : readScript options s.text s.translator with
  | error e =>
    rw [hr] at hread
    cases hread
  | ok r =>
    rw [hr] at hruns
    obtain ⟨w', hrun, -⟩ := RunsTo.of_takesAll hruns hstore rfl
    exact ⟨r.lines, w', hrun⟩

/-- An extraction that wants lines has made **a fact of every line**. -/
theorem exists_facts_of_extractScript (hlines : options.extractLines = true)
    (h : extractScript options s w = .ok totals w') :
    (∃ a, analyze options.toAnalysisOptions s.text = .ok a) ∧
    ∃ facts, FactStore.writeAll facts w.sink.store = .ok () w'.sink.store ∧
      LinesPlacedBy s.translator s.text (lineFacts facts) := by
  obtain ⟨r, hread, -, hwritten⟩ := exists_reading_of_extractScript h
  obtain ⟨a, ha, hplaced⟩ := exists_of_readScript_ok hread
  obtain ⟨body, members, -, hmembers, rfl⟩ := Reading.exists_of_translated_ok hplaced
  refine ⟨⟨a, ha⟩, _, hwritten, ?_⟩
  have hfacts := Finding.forall₂_lines hmembers
  rw [Reading.filterMap_line?_members hlines, List.forall₂_map_left_iff] at hfacts
  rw [Ledger.lineFacts_readingFacts]
  exact hfacts

end Extraction

-- ---------------------------------------------------------------------------
-- The snippet, put together again
-- ---------------------------------------------------------------------------

theorem Translator.translate_of_translateLocation {t : Translator} {l m : Location}
    (h : t.translateLocation l = .ok m) :
    t.translate l.start = .ok m.start ∧ t.translate l.stop = .ok m.stop := by
  rw [translateLocation] at h
  cases hstart : t.translate l.start with
  | error e =>
    rw [hstart] at h
    cases h
  | ok start =>
    cases hstop : t.translate l.stop with
    | error e =>
      rw [hstart, hstop] at h
      cases h
    | ok stop =>
      rw [hstart, hstop] at h
      cases h
      exact ⟨rfl, rfl⟩

namespace LinesPlacedBy

variable {t : Translator} {text : Text} {ms : List LineFact} {m : LineFact} {k : Nat}

theorem length_eq (h : LinesPlacedBy t text ms) :
    ms.length = (LineIndex.ofText text).lineCount := by
  rw [← List.Forall₂.length_eq h, List.length_zipIdx, LineIndex.length_countedLines]

/-- The fact for a line says what there is to say of **the line of its number**. -/
theorem exists_line (h : LinesPlacedBy t text ms) (hm : ms[k]? = some m) :
    ∃ line, (LineIndex.ofText text).countedLines[k]? = some line ∧
      LineFact.PlacedBy t (.ofLine (k + 1) line) m := by
  obtain ⟨hk, rfl⟩ := List.getElem?_eq_some_iff.mp hm
  have hlines : k < ((LineIndex.ofText text).countedLines.zipIdx 1).length := by
    rwa [List.Forall₂.length_eq h]
  have hplaced := List.Forall₂.get h hlines hk
  rw [List.length_zipIdx] at hlines
  refine ⟨_, List.getElem?_eq_getElem hlines, ?_⟩
  simpa only [List.get_eq_getElem, List.getElem_zipIdx, Nat.add_comm 1 k] using hplaced

/-- The facts divide the lines as the index does. -/
theorem map_parts (h : LinesPlacedBy t text ms) :
    ms.map (fun m => (m.text, m.terminator)) =
      (LineIndex.ofText text).countedLines.map fun l => (l.text, l.terminator) := by
  refine List.ext_getElem? fun k => ?_
  rw [List.getElem?_map, List.getElem?_map]
  cases hm : ms[k]? with
  | none =>
    have hlength := List.getElem?_eq_none_iff.mp hm
    rw [h.length_eq, ← LineIndex.length_countedLines] at hlength
    rw [List.getElem?_eq_none hlength]
    rfl
  | some m =>
    obtain ⟨line, hline, htext, hterminator, -⟩ := h.exists_line hm
    rw [hline]
    show some (m.text, m.terminator) = some (line.text, line.terminator)
    rw [htext, hterminator]
    rfl

/-- The facts of the lines make up **the whole text**. -/
theorem flatMap_whole (h : LinesPlacedBy t text ms) : ms.flatMap LineFact.whole = text := by
  have hwhole : ms.map LineFact.whole = (LineIndex.ofText text).countedLines.map IndexedLine.raw := by
    have hjoined := congrArg (List.map fun p : Text × Text => p.1 ++ p.2) h.map_parts
    rw [List.map_map, List.map_map] at hjoined
    refine hjoined.trans (List.map_congr_left fun line _ => ?_)
    exact withoutTerminator_append_terminator line.raw
  rw [List.flatMap_def, hwhole, LineIndex.flatten_raw_countedLines]

theorem exists_of_mem (h : LinesPlacedBy t text ms) (hm : m ∈ ms) :
    ∃ line ∈ (LineIndex.ofText text).countedLines,
      line.text = m.text ∧ line.terminator = m.terminator := by
  have hmem := List.mem_map_of_mem (f := fun m => (m.text, m.terminator)) hm
  rw [h.map_parts] at hmem
  obtain ⟨line, hline, hparts⟩ := List.mem_map.mp hmem
  exact ⟨line, hline, Prod.mk.inj hparts⟩

theorem exists_of_mem_dropLast (h : LinesPlacedBy t text ms) (hm : m ∈ ms.dropLast) :
    ∃ line ∈ (LineIndex.ofText text).countedLines.dropLast, line.terminator = m.terminator := by
  have hmem := List.mem_map_of_mem (f := fun m => (m.text, m.terminator)) hm
  rw [List.map_dropLast, h.map_parts, ← List.map_dropLast] at hmem
  obtain ⟨line, hline, hparts⟩ := List.mem_map.mp hmem
  exact ⟨line, hline, (Prod.mk.inj hparts).2⟩

end LinesPlacedBy

section Reconstruction

variable {σ : Type} [FactStore σ] {options : ExtractionOptions}

/-- An extraction with an answer has made as many facts of lines as its snippet
has lines, the one for line `k` from its first column to its last character,
and they **make up the snippet**: text and terminator of each in turn are the
snippet, no text reaches over a line end, and every terminator but the last has
one line feed, at its end. -/
theorem line_facts_reconstruct (hlines : options.extractLines = true) (s : Snippet)
    (w w' : Workspace σ) (totals : LineTotals) (h : extractScript options s w = .ok totals w') :
    ∃ facts, FactStore.writeAll facts w.sink.store = .ok () w'.sink.store ∧
      (lineFacts facts).length = (LineIndex.ofText s.text).lineCount ∧
      (∀ k m, (lineFacts facts)[k]? = some m →
        s.translator.translate ⟨k + 1, 1⟩ = .ok m.location.start ∧
        s.translator.translate ⟨k + 1, max m.text.length 1⟩ = .ok m.location.stop) ∧
      (lineFacts facts).flatMap (fun m => m.text ++ m.terminator) = s.text ∧
      (∀ m ∈ lineFacts facts, '\n' ∉ m.text ∧ m.text.getLast? ≠ some '\r') ∧
      ∀ m ∈ (lineFacts facts).dropLast, ∃ front, m.terminator = front ++ ['\n'] ∧ '\n' ∉ front := by
  obtain ⟨-, facts, hwritten, hplaced⟩ := exists_facts_of_extractScript hlines h
  refine ⟨facts, hwritten, hplaced.length_eq, fun k m hm => ?_, hplaced.flatMap_whole,
    fun m hm => ?_, fun m hm => ?_⟩
  · obtain ⟨line, -, htext, -, hlocation⟩ := hplaced.exists_line hm
    rw [htext]
    exact Translator.translate_of_translateLocation hlocation
  · obtain ⟨line, hline, htext, -⟩ := hplaced.exists_of_mem hm
    rw [← htext]
    exact ⟨LineIndex.newline_not_mem_text hline, getLast?_withoutTerminator rfl line.raw⟩
  · obtain ⟨line, hline, hterminator⟩ := hplaced.exists_of_mem_dropLast hm
    rw [← hterminator]
    exact LineIndex.exists_terminator_of_mem_dropLast_countedLines hline

end Reconstruction

/-- Carriage returns in front of a line end in a comment, a blank line, and a
last line without line end, in a snippet in the middle of a line. -/
def returnsInComment : Snippet where
  text := ['/', '*', '\r', '\r', '\n', '*', '/', '\r', '\n', '\n', ' ', ' ', 'x']
  kind := .inlineScript
  translator := ⟨⟨4, 7⟩⟩
  file := ⟨1⟩

theorem line_facts_reconstruct_returnsInComment :
    ∃ totals w', extractScript {} returnsInComment (⟨{}, ⟨{}, 1, []⟩⟩ : Workspace FactList) =
        .ok totals w' ∧
      (lineFacts w'.sink.store.facts).length = 4 ∧
      (lineFacts w'.sink.store.facts).flatMap (fun m => m.text ++ m.terminator) =
        returnsInComment.text := by
  obtain ⟨totals, w', hrun⟩ : ∃ totals w',
      extractScript {} returnsInComment (⟨{}, ⟨{}, 1, []⟩⟩ : Workspace FactList) = .ok totals w' :=
    exists_ok_of_readScript (by decide +kernel) (FactStore.takesAll_factList _)
  have hlines : ({} : ExtractionOptions).extractLines = true := rfl
  obtain ⟨facts, hwritten, hlength, -, hwhole, -⟩ :=
    line_facts_reconstruct hlines returnsInComment _ w' totals hrun
  refine ⟨totals, w', hrun, ?_⟩
  rw [FactStore.factList_eq_of_writeAll hwritten]
  exact ⟨hlength.trans (by decide +kernel), hwhole⟩

end FenceFacts
