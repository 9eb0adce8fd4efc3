import FenceFacts.Proofs.Harvest
import FenceFacts.Proofs.LineEnds.Analysis

/-!
# FenceFacts — reading with two kinds of line ends

What is read of a script that is written with carriage returns is what is read
of it otherwise, at the same places.  Only the terminators of its lines and
the line feeds inside its comments show which way it is written; names and
lines hold no line ends, and nothing that is found ends with one.

## Results

* `Reading.ofScript_crlf` — what is found in an accepted script.
* `readIn_crlf`           — reading a script at its place in a document.
* `readingsFacts_crlf`    — the facts that come of it.
-/

namespace FenceFacts

open Text

-- ---------------------------------------------------------------------------
-- Findings and facts
-- ---------------------------------------------------------------------------

def Item.crlf : Item → Item
  | .line text terminator => .line text terminator.crlf
  | .comment text => .comment text.crlf
  | .declaration name kind => .declaration name kind

def Finding.crlf (f : Finding) : Finding := { f with item := f.item.crlf }

def Reading.crlf (r : Reading) : Reading := { r with members := r.members.map (·.crlf) }

/-- The fact as it is told of a document with carriage returns: the terminators
of lines and the line ends inside comments have them. -/
def Fact.crlf : Fact → Fact
  | .file label path => .file label path
  | .topLevel label source kind isModule location => .topLevel label source kind isModule location
  | .line label owner text terminator location => .line label owner text terminator.crlf location
  | .comment label owner text location => .comment label owner text.crlf location
  | .declaration label owner binding name kind location =>
    .declaration label owner binding name kind location

-- ---------------------------------------------------------------------------
-- Places
-- ---------------------------------------------------------------------------

theorem locationOf_crlf {piece : Text} (hlast : piece.getLast? ≠ some '\n')
    (before after : Text) :
    let script := before ++ (piece ++ after)
    locationOf script.crlf (.ofText script.crlf)
        ⟨before.crlf.byteLength, before.crlf.byteLength + piece.crlf.byteLength⟩ =
      locationOf script (.ofText script)
        ⟨before.byteLength, before.byteLength + piece.byteLength⟩ := by
  dsimp only
  rw [crlf_append, crlf_append, locationOf_append, locationOf_append, dropLast_crlf hlast,
    ← crlf_append, advance_crlf, advance_crlf]

variable {script : Text}

theorem locationOf_token_crlf {t : Token} (ht : t ∈ tokenize script)
    (hlast : t.text.getLast? ≠ some '\n') :
    locationOf script.crlf (.ofText script.crlf) ((Respelling.crlf script).span t.span) =
      locationOf script (.ofText script) t.span := by
  obtain ⟨kind, piece, span⟩ := t
  obtain ⟨-, before, after, rfl, rfl⟩ :
    piece ≠ [] ∧ ∃ before after, script = before ++ (piece ++ after) ∧
      span = ⟨before.byteLength, before.byteLength + piece.byteLength⟩ := liesIn_of_mem_tokenize ht
  have hspan := congrArg Token.span (token_crlf_append before kind piece after)
  exact (congrArg (locationOf _ _) hspan).trans (locationOf_crlf hlast before after)

theorem locationOf_body_crlf (script : Text) :
    locationOf script.crlf (.ofText script.crlf) ⟨0, script.crlf.withoutTerminator.byteLength⟩ =
      locationOf script (.ofText script) ⟨0, script.withoutTerminator.byteLength⟩ := by
  have h := locationOf_crlf (getLast?_withoutTerminator rfl script) [] script.terminator
  rw [List.nil_append, withoutTerminator_append_terminator] at h
  simp only [crlf_nil, byteLength_nil, Nat.zero_add, ← withoutTerminator_crlf] at h
  exact h

-- ---------------------------------------------------------------------------
-- Findings of a script
-- ---------------------------------------------------------------------------

theorem Finding.ofLine_crlf {l : Text} (h : '\n' ∉ l.withoutTerminator)
    (start start' number : Nat) :
    ofLine number ⟨start', l.crlf⟩ = (ofLine number ⟨start, l⟩).crlf := by
  have htext : l.crlf.withoutTerminator = l.withoutTerminator := by
    rw [withoutTerminator_crlf, crlf_of_not_mem h]
  simp only [ofLine, crlf, Item.crlf, IndexedLine.text, IndexedLine.terminator, htext,
    terminator_crlf]

theorem Finding.ofLines_crlf {ls : List Text} (h : ∀ l ∈ ls, '\n' ∉ l.withoutTerminator)
    (start start' number : Nat) :
    ((indexed start' (ls.map Text.crlf)).zipIdx number).map (fun (line, n) => ofLine n line) =
      (((indexed start ls).zipIdx number).map fun (line, n) => ofLine n line).map (·.crlf) := by
  induction ls generalizing start start' number with
  | nil => rfl
  | cons l ls ih =>
    have hl := ofLine_crlf (h l List.mem_cons_self) start start' number
    have hls := ih (fun l' hl' => h l' (List.mem_cons_of_mem l hl')) (start + l.byteLength)
      (start' + l.crlf.byteLength) (number + 1)
    simp only [List.map_cons, indexed, List.zipIdx_cons, hl, hls]

theorem Finding.ofCountedLines_crlf (script : Text) :
    ((LineIndex.ofText script.crlf).countedLines.zipIdx 1).map (fun (line, n) => ofLine n line) =
      (((LineIndex.ofText script).countedLines.zipIdx 1).map fun (line, n) => ofLine n line).map
        (·.crlf) := by
  by_cases h : script = []
  · rw [h]
    rfl
  · have hcrlf : script.crlf ≠ [] := fun hnil => h (crlf_eq_nil_iff.mp hnil)
    rw [LineIndex.countedLines_ofText h, LineIndex.countedLines_ofText hcrlf, lines_crlf]
    exact ofLines_crlf (fun l hl => not_mem_withoutTerminator hl) 0 0 1

section Accepted

variable {options : ExtractionOptions} {a : Analysis}
  (h : analyze options.toAnalysisOptions script = .ok a)

include h

theorem Finding.ofComment_crlf {t : Token} (ht : t ∈ a.comments) :
    ofComment script.crlf (.ofText script.crlf) ((Respelling.crlf script).token t) =
      (ofComment script (.ofText script) t).crlf := by
  obtain ⟨hmem, hkind⟩ := List.mem_filter.mp ht
  rw [(eq_of_analyze_ok h).1] at hmem
  have hnewline : t.kind ≠ .newline := by
    intro hnewline
    rw [hnewline] at hkind
    cases hkind
  have hlocation := locationOf_token_crlf hmem (getLast?_ne_newline_of_accepted h hmem hnewline)
  exact congrArg (Finding.mk (.comment t.text.crlf)) hlocation

theorem Finding.ofDeclaration_crlf {d : Declaration} (hd : d ∈ a.declarations) :
    ofDeclaration script.crlf (.ofText script.crlf) ((Respelling.crlf script).declaration d) =
      (ofDeclaration script (.ofText script) d).crlf := by
  rw [(eq_of_analyze_ok h).2.1] at hd
  obtain ⟨t, ht, hkind, hname, hspan⟩ := exists_token_of_mem_declarations hd
  -- the name is a word, which holds no line feed
  have hname : '\n' ∉ d.name := by
    intro hmem
    have hspans := spansLines_of_mem ht (hname ▸ hmem)
    rw [hkind] at hspans
    cases hspans
  have hlocation := locationOf_token_crlf ht (getLast?_ne_newline ht (by rw [hkind]; rfl))
  rw [← hspan] at hlocation
  show Finding.mk (.declaration d.name.crlf d.kind) _ = _
  rw [crlf_of_not_mem hname]
  exact congrArg (Finding.mk (.declaration d.name d.kind)) hlocation

/-- What is found in a script is found **at the same places**. -/
theorem Reading.ofScript_crlf :
    ofScript options script.crlf ((Respelling.crlf script).analysis a) =
      (ofScript options script a).crlf := by
  have hlines := Finding.ofCountedLines_crlf script
  have hcomments : ((Respelling.crlf script).analysis a).comments.map
      (.ofComment script.crlf (.ofText script.crlf)) =
        (a.comments.map (.ofComment script (.ofText script))).map Finding.crlf := by
    have hfilter : ((Respelling.crlf script).analysis a).comments =
        a.comments.map (Respelling.crlf script).token := List.filter_map
    rw [hfilter, List.map_map, List.map_map]
    exact List.map_congr_left fun t ht => Finding.ofComment_crlf h ht
  have hdeclarations : ((Respelling.crlf script).analysis a).declarations.map
      (.ofDeclaration script.crlf (.ofText script.crlf)) =
        (a.declarations.map (.ofDeclaration script (.ofText script))).map Finding.crlf := by
    rw [Respelling.analysis, List.map_map, List.map_map]
    exact List.map_congr_left fun d hd => Finding.ofDeclaration_crlf h hd
  have hmembers : membersOf options script.crlf ((Respelling.crlf script).analysis a) =
      (membersOf options script a).map Finding.crlf := by
    simp only [membersOf, List.map_append, hcomments, hdeclarations, hlines,
      apply_ite (List.map Finding.crlf), List.map_nil]
  rw [ofScript, locationOf_body_crlf, hmembers]
  rfl

end Accepted

-- ---------------------------------------------------------------------------
-- Reading in a document
-- ---------------------------------------------------------------------------

theorem Finding.mapM_translated_crlf (t : Translator) (fs : List Finding) :
    (fs.map Finding.crlf).mapM (translated t) =
      (fs.mapM (translated t)).map (List.map Finding.crlf) := by
  induction fs with
  | nil => rfl
  | cons f fs ih =>
    have hlocation : f.crlf.location = f.location := rfl
    rw [List.map_cons, List.mapM_cons, List.mapM_cons, ih, translated, translated, hlocation]
    cases t.translateLocation f.location with
    | error e => rfl
    | ok location => cases fs.mapM (translated t) <;> rfl

theorem Reading.translated_crlf (t : Translator) (r : Reading) :
    r.crlf.translated t = (r.translated t).map Reading.crlf := by
  rw [translated, translated, Reading.crlf, Finding.mapM_translated_crlf]
  cases t.translateLocation r.body with
  | error e => rfl
  | ok body => cases r.members.mapM (·.translated t) <;> rfl

theorem readScript_crlf (hcr : '\r' ∉ script) (options : ExtractionOptions) (t : Translator) :
    readScript options script.crlf t = (readScript options script t).map Reading.crlf := by
  rw [readScript, readScript, analyze_crlf hcr]
  cases ha : analyze options.toAnalysisOptions script with
  | error e =>
    have hposition := positionOf_crlf (isBoundary_of_analyze_error ha)
    exact congrArg (fun p => Except.error (SnippetFailure.parse ⟨e.cause.message, p⟩)) hposition
  | ok a =>
    show ((Reading.ofScript options script.crlf _).translated t).mapError _ =
      (((Reading.ofScript options script a).translated t).mapError _).map _
    rw [Reading.ofScript_crlf ha, Reading.translated_crlf]
    cases (Reading.ofScript options script a).translated t <;> rfl

/-- A script is read **as it is otherwise**, wherever it stands. -/
theorem readIn_crlf (hcr : '\r' ∉ script) (source : Source) (options : ExtractionOptions)
    (t : Translator) :
    readIn source options script.crlf t = (readIn source options script t).map Reading.crlf := by
  rw [readIn, readIn, readScript_crlf hcr]
  cases readScript options script t <;> rfl

-- ---------------------------------------------------------------------------
-- Recording
-- ---------------------------------------------------------------------------

namespace Ledger

variable (l : Ledger)

theorem record_crlf (f : Finding) : l.record f.crlf = l.record f := by
  obtain ⟨item, location⟩ := f
  cases item <;> rfl

theorem factOf_crlf (topLevel : Label) (f : Finding) :
    l.factOf topLevel f.crlf = (l.factOf topLevel f).crlf := by
  obtain ⟨item, location⟩ := f
  cases item <;> rfl

theorem recordReading_crlf (r : Reading) : l.recordReading r.crlf = l.recordReading r :=
  recordAll_map record_crlf l.spend r.members

theorem readingFacts_crlf (file : Label) (kind : TopLevelKind) (r : Reading) :
    l.readingFacts file kind r.crlf = (l.readingFacts file kind r).map Fact.crlf :=
  congrArg (Fact.topLevel l.next file kind r.isModule r.body :: ·)
    (factsOf_map record_crlf (fun l f => l.factOf_crlf _ f) l.spend r.members)

theorem recordReadings_crlf (rs : List Reading) :
    l.recordReadings (rs.map Reading.crlf) = l.recordReadings rs := by
  rw [recordReadings, List.foldl_map]
  simp only [recordReading_crlf]
  rfl

theorem readingsFacts_crlf (file : Label) (kind : TopLevelKind) (rs : List Reading) :
    l.readingsFacts file kind (rs.map Reading.crlf) =
      (l.readingsFacts file kind rs).map Fact.crlf := by
  induction rs generalizing l with
  | nil => rfl
  | cons r rs ih =>
    rw [List.map_cons, readingsFacts, readingsFacts, List.map_append, readingFacts_crlf,
      recordReading_crlf, ih]

end Ledger

end FenceFacts
