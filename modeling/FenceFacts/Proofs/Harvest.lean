import FenceFacts.Extraction.Markdown
import FenceFacts.Proofs.Recording

/-!
# FenceFacts — harvests

The harvest of a document is what is read of its scripts and how the reading
ends.  It can be told from the document and the options alone, before any
label is handed out or any fact is written: the blocks are read in order up to
the first that fails, and a script file is read as a whole.  Recorded one
after the other behind the label of the file, the readings are the facts of
the document.

## Results

* `readIn_of_fitsBelow` — a script in range is read as it is, further down.
* `readings_of_ok`      — with an answer, all scripts have been read.
* `readings_of_parse`   — a rejected script comes right behind those.
-/

namespace FenceFacts

-- ---------------------------------------------------------------------------
-- What is read of a document
-- ---------------------------------------------------------------------------

structure Harvest where
  /-- The scripts that were accepted, each at its place in the document. -/
  readings : List Reading
  result : Except ExtractionFailure LineTotals

def Harvest.single : Except ExtractionFailure Reading → Harvest
  | .ok r => ⟨[r], .ok r.lines⟩
  | .error e => ⟨[], .error e⟩

theorem Harvest.exists_of_single_ok {x : Except ExtractionFailure Reading} {totals : LineTotals}
    (h : (single x).result = .ok totals) : ∃ r, x = .ok r := by
  cases x with
  | ok r => exact ⟨r, rfl⟩
  | error e => cases h

theorem Harvest.eq_of_single_error {x : Except ExtractionFailure Reading} {e : ExtractionFailure}
    (h : (single x).result = .error e) : x = .error e := by
  cases x with
  | ok r => cases h
  | error e' => exact congrArg Except.error (Except.error.inj h)

/-- What is read of a script in a document with this source. -/
def readIn (source : Source) (options : ExtractionOptions) (text : Text) (t : Translator) :
    Except ExtractionFailure Reading :=
  (readScript options text t).mapError (SnippetFailure.inDocument source t)

def readBlock (options : ExtractionOptions) (d : Document) (b : Block) :
    Except ExtractionFailure Reading :=
  match d.anchor b with
  | .error e => .error (.fault e)
  | .ok anchor => readIn d.source options b.content ⟨anchor⟩

section Read

variable {options : ExtractionOptions}

theorem exists_of_readIn_ok {source : Source} {text : Text} {t : Translator} {r : Reading}
    (h : readIn source options text t = .ok r) :
    ∃ a, analyze options.toAnalysisOptions text = .ok a ∧
      (Reading.ofScript options text a).translated t = .ok r := by
  rw [readIn] at h
  cases hread : readScript options text t with
  | error e =>
    rw [hread] at h
    cases h
  | ok r' =>
    rw [hread] at h
    cases h
    exact exists_of_readScript_ok hread

theorem exists_lines_of_readIn_ok {source : Source} {text : Text} {t : Translator} {r : Reading}
    (h : readIn source options text t = .ok r) :
    ∃ tokens, r.lines = countLines (.ofText text) tokens := by
  obtain ⟨a, ha, hr⟩ := exists_of_readIn_ok h
  obtain ⟨-, -, hlines⟩ := eq_of_analyze_ok ha
  exact ⟨tokenize text, by rw [(Reading.of_translated_ok hr).1, ← hlines]; rfl⟩

theorem exists_of_readIn_parse {source source' : Source} {text : Text} {t : Translator}
    {e : ParseError} (h : readIn source options text t = .error (.parse source' e)) :
    source' = source ∧ ∃ err, analyze options.toAnalysisOptions text = .error err ∧
      (err.located (.ofText text)).translated t = .ok e := by
  rw [readIn, readScript] at h
  cases ha : analyze options.toAnalysisOptions text with
  | error err =>
    rw [ha] at h
    simp only [Except.mapError, SnippetFailure.inDocument] at h
    cases he : (err.located (.ofText text)).translated t with
    | error f =>
      rw [he] at h
      cases h
    | ok e' =>
      rw [he] at h
      cases h
      exact ⟨rfl, err, rfl, he⟩
  | ok a =>
    rw [ha] at h
    dsimp only at h
    cases hr : (Reading.ofScript options text a).translated t with
    | error f =>
      rw [hr] at h
      cases h
    | ok r =>
      rw [hr] at h
      cases h

/-- In range, a script is read as it is, a number of lines further down. -/
theorem readIn_of_fitsBelow {text : Text} {n : Nat} (h : text.FitsBelow n) (source : Source) :
    readIn source options text ⟨⟨n + 1, 1⟩⟩ =
      match analyze options.toAnalysisOptions text with
      | .error err => .error (.parse source
          ⟨err.cause.message, ((LineIndex.ofText text).positionOf err.offset).lowered n⟩)
      | .ok a => .ok ((Reading.ofScript options text a).lowered n) := by
  rw [readIn, readScript]
  cases ha : analyze options.toAnalysisOptions text with
  | error err =>
    -- the offset of an error is a boundary, so its position is a reading
    obtain ⟨before, after, rfl, hoffset⟩ := isBoundary_of_analyze_error ha
    have htranslate := h.translate rfl
    rw [← LineIndex.positionOf_ofText_append before after, ← hoffset] at htranslate
    simp only [Except.mapError, SnippetFailure.inDocument, ParseError.translated,
      ScriptError.located, htranslate]
    rfl
  | ok a =>
    dsimp only
    rw [(Reading.spelledIn_ofScript ha).translated_lowered h]
    rfl

variable {d : Document} {b : Block}

theorem readBlock_eq {anchor : Position} (h : d.anchor b = .ok anchor) :
    readBlock options d b = readIn d.source options b.content ⟨anchor⟩ := by
  rw [readBlock, h]

theorem exists_of_readBlock_ok {r : Reading} (h : readBlock options d b = .ok r) :
    ∃ anchor a, d.anchor b = .ok anchor ∧ analyze options.toAnalysisOptions b.content = .ok a ∧
      (Reading.ofScript options b.content a).translated ⟨anchor⟩ = .ok r := by
  cases hanchor : d.anchor b with
  | error e =>
    rw [readBlock, hanchor] at h
    cases h
  | ok anchor =>
    rw [readBlock_eq hanchor] at h
    obtain ⟨a, ha, hr⟩ := exists_of_readIn_ok h
    exact ⟨anchor, a, rfl, ha, hr⟩

end Read

/-- The blocks that are not blank. -/
def scriptBlocks (bs : List Block) : List Block := bs.filter fun b => !b.isBlank

theorem mem_scriptBlocks {bs : List Block} {b : Block} :
    b ∈ scriptBlocks bs ↔ b ∈ bs ∧ ¬ b.isBlank = true := by
  simp [scriptBlocks]

theorem scriptBlocks_of_blank {b : Block} (h : b.isBlank = true) (bs : List Block) :
    scriptBlocks (b :: bs) = scriptBlocks bs := by
  rw [scriptBlocks, List.filter_cons_of_neg (by simp [h])]
  rfl

theorem scriptBlocks_of_not_blank {b : Block} (h : ¬ b.isBlank = true) (bs : List Block) :
    scriptBlocks (b :: bs) = b :: scriptBlocks bs := by
  rw [scriptBlocks, List.filter_cons_of_pos (by simp [h])]
  rfl

/-- What is read of the blocks that are not blank, up to the first that fails. -/
def readBlocks (options : ExtractionOptions) (d : Document) (totals : LineTotals) :
    List Block → Harvest
  | [] => ⟨[], .ok totals⟩
  | b :: bs =>
    if b.isBlank then readBlocks options d totals bs
    else
      match readBlock options d b with
      | .error e => ⟨[], .error e⟩
      | .ok r =>
        match totals.add r.lines with
        | .error e => ⟨[r], .error (.fault e)⟩
        | .ok totals' =>
          let rest := readBlocks options d totals' bs
          ⟨r :: rest.readings, rest.result⟩

section ReadBlocks

variable {options : ExtractionOptions} {d : Document} {totals : LineTotals} {b : Block}

theorem readBlocks_of_blank (hblank : b.isBlank = true) (bs : List Block) :
    readBlocks options d totals (b :: bs) = readBlocks options d totals bs := by
  rw [readBlocks, if_pos hblank]

theorem readBlocks_of_error (hblank : ¬ b.isBlank = true) {e : ExtractionFailure}
    (hread : readBlock options d b = .error e) (bs : List Block) :
    readBlocks options d totals (b :: bs) = ⟨[], .error e⟩ := by
  rw [readBlocks, if_neg hblank, hread]

theorem readBlocks_of_overflow (hblank : ¬ b.isBlank = true) {r : Reading} {e : Fault}
    (hread : readBlock options d b = .ok r) (hadd : totals.add r.lines = .error e)
    (bs : List Block) :
    readBlocks options d totals (b :: bs) = ⟨[r], .error (.fault e)⟩ := by
  rw [readBlocks, if_neg hblank, hread]
  simp only [hadd]

theorem readBlocks_of_ok (hblank : ¬ b.isBlank = true) {r : Reading} {totals' : LineTotals}
    (hread : readBlock options d b = .ok r) (hadd : totals.add r.lines = .ok totals')
    (bs : List Block) :
    readBlocks options d totals (b :: bs) =
      ⟨r :: (readBlocks options d totals' bs).readings, (readBlocks options d totals' bs).result⟩ := by
  rw [readBlocks, if_neg hblank, hread]
  simp only [hadd]

theorem exists_reading_of_mem {bs : List Block} {rs : List Reading}
    (h : List.Forall₂ (fun b r => readBlock options d b = .ok r) bs rs) (hb : b ∈ bs) :
    ∃ r, readBlock options d b = .ok r := by
  induction h with
  | nil => exact absurd hb List.not_mem_nil
  | cons hread _ ih =>
    rcases List.mem_cons.mp hb with rfl | hb
    · exact ⟨_, hread⟩
    · exact ih hb

/-- What is read with an answer is read of all the scripts. -/
theorem readings_of_ok {bs : List Block} {answer : LineTotals}
    (h : (readBlocks options d totals bs).result = .ok answer) :
    List.Forall₂ (fun b r => readBlock options d b = .ok r) (scriptBlocks bs)
      (readBlocks options d totals bs).readings := by
  induction bs generalizing totals with
  | nil => exact List.Forall₂.nil
  | cons b bs ih =>
    by_cases hblank : b.isBlank = true
    · rw [readBlocks_of_blank hblank] at h ⊢
      rw [scriptBlocks_of_blank hblank]
      exact ih h
    · rw [scriptBlocks_of_not_blank hblank]
      cases hread : readBlock options d b with
      | error e =>
        rw [readBlocks_of_error hblank hread] at h
        cases h
      | ok r =>
        cases hadd : totals.add r.lines with
        | error e =>
          rw [readBlocks_of_overflow hblank hread hadd] at h
          cases h
        | ok totals' =>
          rw [readBlocks_of_ok hblank hread hadd] at h ⊢
          exact List.Forall₂.cons hread (ih h)

/-- A script is rejected after all the scripts before it have been read. -/
theorem readings_of_parse {bs : List Block} {source : Source} {e : ParseError}
    (h : (readBlocks options d totals bs).result = .error (.parse source e)) :
    ∃ before b after, scriptBlocks bs = before ++ b :: after ∧
      List.Forall₂ (fun b r => readBlock options d b = .ok r) before
        (readBlocks options d totals bs).readings ∧
      readBlock options d b = .error (.parse source e) := by
  induction bs generalizing totals with
  | nil => cases h
  | cons b bs ih =>
    by_cases hblank : b.isBlank = true
    · rw [readBlocks_of_blank hblank] at h ⊢
      rw [scriptBlocks_of_blank hblank]
      exact ih h
    · rw [scriptBlocks_of_not_blank hblank]
      cases hread : readBlock options d b with
      | error e' =>
        rw [readBlocks_of_error hblank hread] at h ⊢
        obtain rfl := Except.error.inj h
        exact ⟨[], b, scriptBlocks bs, rfl, List.Forall₂.nil, hread⟩
      | ok r =>
        cases hadd : totals.add r.lines with
        | error e' =>
          -- counts out of range are a fault, not a rejected script
          rw [readBlocks_of_overflow hblank hread hadd] at h
          cases h
        | ok totals' =>
          rw [readBlocks_of_ok hblank hread hadd] at h ⊢
          obtain ⟨before, b', after, hbs, hbefore, hb'⟩ := ih h
          exact ⟨b :: before, b', after, congrArg (b :: ·) hbs, hbefore.cons hread, hb'⟩

end ReadBlocks

def Harvest.ofMarkdown (options : ExtractionOptions) (d : Document) : Harvest :=
  readBlocks options.forBlocks d {} d.scan.blocks

def Harvest.ofScriptFile (options : ExtractionOptions) (d : Document) : Harvest :=
  single (readIn d.source options d.text {})

-- ---------------------------------------------------------------------------
-- Recorded readings
-- ---------------------------------------------------------------------------

namespace Ledger

def recordReadings (l : Ledger) (rs : List Reading) : Ledger := rs.foldl recordReading l

/-- The facts of the scripts of a document, one after the other. -/
def readingsFacts (l : Ledger) (file : Label) (kind : TopLevelKind) : List Reading → List Fact
  | [] => []
  | r :: rs => l.readingFacts file kind r ++ (l.recordReading r).readingsFacts file kind rs

theorem recordReadings_append (l : Ledger) (rs rs' : List Reading) :
    l.recordReadings (rs ++ rs') = (l.recordReadings rs).recordReadings rs' :=
  List.foldl_append

theorem readingsFacts_append (l : Ledger) (file : Label) (kind : TopLevelKind)
    (rs rs' : List Reading) :
    l.readingsFacts file kind (rs ++ rs') =
      l.readingsFacts file kind rs ++ (l.recordReadings rs).readingsFacts file kind rs' := by
  induction rs generalizing l with
  | nil => rfl
  | cons r rs ih =>
    rw [List.cons_append, readingsFacts, ih, readingsFacts, List.append_assoc]
    rfl

theorem readingsFacts_singleton (l : Ledger) (file : Label) (kind : TopLevelKind) (r : Reading) :
    l.readingsFacts file kind [r] = l.readingFacts file kind r :=
  List.append_nil _

end Ledger

namespace Harvest

/-- The ledger before the scripts of a document: the label of the file is spent. -/
def ledger (last : Nat) : Ledger := ⟨{}, last + 1⟩

def facts (g : Harvest) (path : Text) (kind : TopLevelKind) (last : Nat) : List Fact :=
  .file ⟨last + 1⟩ path :: (ledger last).readingsFacts ⟨last + 1⟩ kind g.readings

/-- The last label that is handed out for a document. -/
def lastLabel (g : Harvest) (last : Nat) : Nat :=
  ((ledger last).recordReadings g.readings).lastLabel

end Harvest

/-- The fact is told of a document with this path and scripts of this kind. -/
def Fact.IsFrom (path : Text) (kind : TopLevelKind) : Fact → Prop
  | .file _ p => p = path
  | .topLevel _ _ k _ _ => k = kind
  | _ => True

theorem Harvest.isFrom_of_mem_facts {g : Harvest} {path : Text} {kind : TopLevelKind} {last : Nat}
    {f : Fact} (h : f ∈ g.facts path kind last) : f.IsFrom path kind := by
  have hreadings (rs : List Reading) (l : Ledger) (file : Label) :
      f ∈ l.readingsFacts file kind rs → f.IsFrom path kind := by
    induction rs generalizing l with
    | nil => exact fun h => absurd h List.not_mem_nil
    | cons r rs ih =>
      intro h
      rcases List.mem_append.mp h with h | h
      · rcases List.mem_cons.mp h with rfl | h
        · rfl
        · obtain ⟨⟨item, location⟩, -, l', rfl⟩ := Ledger.exists_of_mem_factsOf h
          cases item <;> trivial
      · exact ih _ h
  rcases List.mem_cons.mp h with rfl | h
  · rfl
  · exact hreadings g.readings _ _ h

end FenceFacts
