import FenceFacts.Extraction.Script
import FenceFacts.Proofs.LineIndex
import FenceFacts.Proofs.Token

/-!
# FenceFacts — findings

Extraction finds things in a script before it knows what they are called: the
body of the script, its lines, comments and declarations, each with its place
in the script.  What it finds depends on the script and the options only;
labels come in when the findings are recorded as facts, and the place in the
document comes in with the translator.

Every finding is a piece of the script, and its place says where that piece
stands: the first position is that of the first character, the second one
that of the last.  The empty piece is given the position it stands at, twice.

## Results

* `spelledIn_ofScript`  — the findings of a script stand where they say.
* `translated_lowered`  — the translator of an anchor at the start of a line
  moves them down, as long as the positions of the text stay in range.
-/

namespace FenceFacts

-- ---------------------------------------------------------------------------
-- Findings
-- ---------------------------------------------------------------------------

/-- What is found in a script besides its body. -/
inductive Item
  | line (text terminator : Text)
  | comment (text : Text)
  | declaration (name : Text) (kind : DeclarationKind)
  deriving DecidableEq, Repr

/-- The characters it consists of. -/
def Item.piece : Item → Text
  | line text _ => text
  | comment text => text
  | declaration name _ => name

structure Finding where
  item : Item
  location : Location
  deriving DecidableEq, Repr

namespace Finding

def ofLine (number : Nat) (line : IndexedLine) : Finding :=
  ⟨.line line.text line.terminator, lineLocation number line.text⟩

def ofComment (text : Text) (index : LineIndex) (comment : Token) : Finding :=
  ⟨.comment comment.text, locationOf text index comment.span⟩

def ofDeclaration (text : Text) (index : LineIndex) (d : Declaration) : Finding :=
  ⟨.declaration d.name d.kind, locationOf text index d.span⟩

def translated (t : Translator) (f : Finding) : Except Fault Finding := do
  return { f with location := ← t.translateLocation f.location }

end Finding

/-- What is read of an accepted script. -/
structure Reading where
  isModule : Bool
  body : Location
  members : List Finding
  lines : LineTotals
  deriving DecidableEq, Repr

namespace Reading

/-- The lines, where they are wanted, then the comments, then the declarations. -/
def membersOf (options : ExtractionOptions) (text : Text) (a : Analysis) : List Finding :=
  let index := LineIndex.ofText text
  (if options.extractLines then
    (index.countedLines.zipIdx 1).map fun (line, number) => .ofLine number line else []) ++
    (a.comments.map (.ofComment text index) ++ a.declarations.map (.ofDeclaration text index))

def ofScript (options : ExtractionOptions) (text : Text) (a : Analysis) : Reading where
  isModule := a.isModule
  body := locationOf text (.ofText text) ⟨0, text.withoutTerminator.byteLength⟩
  members := membersOf options text a
  lines := a.lines

def translated (t : Translator) (r : Reading) : Except Fault Reading := do
  let body ← t.translateLocation r.body
  let members ← r.members.mapM (·.translated t)
  return { r with body, members }

end Reading

theorem Finding.exists_of_translated_ok {t : Translator} {f g : Finding}
    (h : f.translated t = .ok g) :
    ∃ location, t.translateLocation f.location = .ok location ∧ g = { f with location } := by
  rw [translated] at h
  cases hlocation : t.translateLocation f.location with
  | error e =>
    rw [hlocation] at h
    cases h
  | ok location =>
    rw [hlocation] at h
    cases h
    exact ⟨location, rfl, rfl⟩

/-- Findings are placed one by one. -/
theorem Finding.forall₂_translated {t : Translator} {fs gs : List Finding}
    (h : fs.mapM (·.translated t) = .ok gs) :
    List.Forall₂ (fun f g => f.translated t = .ok g) fs gs := by
  induction fs generalizing gs with
  | nil =>
    cases h
    exact .nil
  | cons f fs ih =>
    rw [List.mapM_cons] at h
    cases hf : f.translated t with
    | error e =>
      rw [hf] at h
      cases h
    | ok g =>
      cases hfs : fs.mapM (·.translated t) with
      | error e =>
        rw [hf, hfs] at h
        cases h
      | ok gs' =>
        rw [hf, hfs] at h
        cases h
        exact .cons hf (ih hfs)

/-- A finding stays what it is wherever it is placed. -/
theorem Finding.map_item_of_mapM_translated {t : Translator} {fs gs : List Finding}
    (h : fs.mapM (·.translated t) = .ok gs) : gs.map (·.item) = fs.map (·.item) := by
  have hplaced := forall₂_translated h
  clear h
  induction hplaced with
  | nil => rfl
  | cons hf _ ih =>
    obtain ⟨location, -, rfl⟩ := exists_of_translated_ok hf
    rw [List.map_cons, List.map_cons, ih]

theorem Reading.exists_of_translated_ok {t : Translator} {r r' : Reading}
    (h : r.translated t = .ok r') :
    ∃ body members, t.translateLocation r.body = .ok body ∧
      r.members.mapM (·.translated t) = .ok members ∧ r' = { r with body, members } := by
  rw [translated] at h
  cases hbody : t.translateLocation r.body with
  | error e =>
    rw [hbody] at h
    cases h
  | ok body =>
    cases hmembers : r.members.mapM (·.translated t) with
    | error e =>
      rw [hbody, hmembers] at h
      cases h
    | ok members =>
      rw [hbody, hmembers] at h
      cases h
      exact ⟨body, members, rfl, rfl, rfl⟩

theorem Reading.of_translated_ok {t : Translator} {r r' : Reading} (h : r.translated t = .ok r') :
    r'.lines = r.lines ∧ r'.members.map (·.item) = r.members.map (·.item) := by
  obtain ⟨body, members, -, hmembers, rfl⟩ := exists_of_translated_ok h
  exact ⟨rfl, Finding.map_item_of_mapM_translated hmembers⟩

-- ---------------------------------------------------------------------------
-- Places
-- ---------------------------------------------------------------------------

namespace Text

/-- The text has the piece at this location. -/
def Spells (t : Text) (l : Location) (piece : Text) : Prop :=
  ∃ before after, t = before ++ (piece ++ after) ∧
    l = ⟨Position.first.advance before, Position.first.advance (before ++ piece.dropLast)⟩

/-- A span is given the positions of the first and the last character of what
it cuts out. -/
theorem locationOf_append (before piece after : Text) :
    locationOf (before ++ (piece ++ after)) (.ofText (before ++ (piece ++ after)))
        ⟨before.byteLength, before.byteLength + piece.byteLength⟩ =
      ⟨Position.first.advance before, Position.first.advance (before ++ piece.dropLast)⟩ := by
  have hlast : (LineIndex.ofText (before ++ (piece ++ after))).positionOf
      (before.byteLength + Text.byteLength piece.dropLast) =
        Position.first.advance (before ++ piece.dropLast) := by
    obtain ⟨tail, htail⟩ := List.dropLast_prefix piece
    have hsplit : before ++ (piece ++ after) = (before ++ piece.dropLast) ++ (tail ++ after) := by
      conv_lhs => rw [← htail]
      simp only [List.append_assoc]
    rw [hsplit, ← byteLength_append, LineIndex.positionOf_ofText_append]
  unfold locationOf
  rw [slice?_append]
  show (⟨_, _⟩ : Location) = _
  rw [LineIndex.positionOf_ofText_append, hlast]

theorem spells_locationOf (before piece after : Text) :
    Spells (before ++ (piece ++ after))
      (locationOf (before ++ (piece ++ after)) (.ofText (before ++ (piece ++ after)))
        ⟨before.byteLength, before.byteLength + piece.byteLength⟩) piece :=
  ⟨before, after, rfl, locationOf_append before piece after⟩

theorem spells_body (t : Text) :
    t.Spells (locationOf t (.ofText t) ⟨0, t.withoutTerminator.byteLength⟩)
      t.withoutTerminator := by
  have h := spells_locationOf [] t.withoutTerminator t.terminator
  rw [List.nil_append, withoutTerminator_append_terminator, byteLength_nil, Nat.zero_add] at h
  exact h

end Text

theorem Token.LiesIn.spells {script : Text} {t : Token} (h : t.LiesIn script) :
    script.Spells (locationOf script (.ofText script) t.span) t.text := by
  obtain ⟨-, before, after, rfl, hspan⟩ := h
  rw [hspan]
  exact Text.spells_locationOf before t.text after

/-- A line stands at the columns from one to its length. -/
theorem spells_lineLocation {t : Text} {line : IndexedLine} {number : Nat}
    (h : (line, number) ∈ (LineIndex.ofText t).countedLines.zipIdx 1) :
    t.Spells (lineLocation number line.text) line.text := by
  obtain ⟨before, after, rfl, hclosed, rfl, hmem⟩ := LineIndex.exists_of_mem_countedLines h
  have hlast : '\n' ∉ line.text.dropLast := fun hl => hmem (List.dropLast_subset _ hl)
  have hraw : line.text ++ line.terminator = line.raw :=
    Text.withoutTerminator_append_terminator line.raw
  refine ⟨before, line.terminator ++ after, ?_, ?_⟩
  · rw [← List.append_assoc line.text, hraw]
  · rw [Position.first_advance_of_closed hclosed, Position.first_advance_append hclosed hlast,
      List.length_dropLast, lineLocation]
    congr 2
    omega

-- ---------------------------------------------------------------------------
-- The findings of a script
-- ---------------------------------------------------------------------------

/-- Everything read of the script stands where it says, and only a line can be
empty. -/
structure Reading.SpelledIn (r : Reading) (text : Text) : Prop where
  body : text.Spells r.body text.withoutTerminator
  members : ∀ f ∈ r.members, text.Spells f.location f.item.piece
  nonempty : ∀ f ∈ r.members, (∀ t t', f.item ≠ .line t t') → f.item.piece ≠ []

/-- A finding other than a line comes from a token. -/
theorem Reading.exists_token_of_mem_members {options : ExtractionOptions} {text : Text}
    {a : Analysis} (h : analyze options.toAnalysisOptions text = .ok a) {f : Finding}
    (hf : f ∈ Reading.membersOf options text a) :
    (∃ line number, (line, number) ∈ (LineIndex.ofText text).countedLines.zipIdx 1 ∧
      f = .ofLine number line) ∨
    ∃ t ∈ tokenize text, f.item.piece = t.text ∧
      f.location = locationOf text (.ofText text) t.span := by
  obtain ⟨htokens, hdeclarations, -⟩ := eq_of_analyze_ok h
  rcases List.mem_append.mp hf with hline | hrest
  · split at hline
    · obtain ⟨⟨line, number⟩, hmem, rfl⟩ := List.mem_map.mp hline
      exact Or.inl ⟨line, number, hmem, rfl⟩
    · exact absurd hline List.not_mem_nil
  · right
    rcases List.mem_append.mp hrest with hcomment | hdeclaration
    · obtain ⟨comment, hmem, rfl⟩ := List.mem_map.mp hcomment
      exact ⟨comment, htokens ▸ List.mem_of_mem_filter hmem, rfl, rfl⟩
    · obtain ⟨d, hmem, rfl⟩ := List.mem_map.mp hdeclaration
      rw [hdeclarations] at hmem
      obtain ⟨token, htoken, -, hname, hspan⟩ := exists_token_of_mem_declarations hmem
      exact ⟨token, htoken, hname, by rw [← hspan]; rfl⟩

/-- The findings of a script **stand where they say**. -/
theorem Reading.spelledIn_ofScript {options : ExtractionOptions} {text : Text} {a : Analysis}
    (h : analyze options.toAnalysisOptions text = .ok a) :
    (Reading.ofScript options text a).SpelledIn text := by
  refine ⟨Text.spells_body text, fun f hf => ?_, fun f hf hline => ?_⟩
  · rcases exists_token_of_mem_members h hf with ⟨line, number, hmem, rfl⟩ | ⟨t, ht, hpiece, hplace⟩
    · exact spells_lineLocation hmem
    · rw [hpiece, hplace]
      exact (liesIn_of_mem_tokenize ht).spells
  · rcases exists_token_of_mem_members h hf with ⟨line, number, -, rfl⟩ | ⟨t, ht, hpiece, -⟩
    · exact absurd rfl (hline _ _)
    · rw [hpiece]
      exact (liesIn_of_mem_tokenize ht).1

-- ---------------------------------------------------------------------------
-- Moving down
-- ---------------------------------------------------------------------------

def Location.lowered (n : Nat) (l : Location) : Location := ⟨l.start.lowered n, l.stop.lowered n⟩

def Finding.lowered (n : Nat) (f : Finding) : Finding := { f with location := f.location.lowered n }

def Reading.lowered (n : Nat) (r : Reading) : Reading :=
  { r with body := r.body.lowered n, members := r.members.map (·.lowered n) }

theorem Reading.lowered_zero (r : Reading) : r.lowered 0 = r := by
  show ({ r with members := r.members.map fun f => f } : Reading) = r
  rw [List.map_id_fun']
  rfl

section Lowered

variable {t : Text} {n : Nat}

theorem Text.Spells.translateLocation {l : Location} {piece : Text} (hl : t.Spells l piece)
    (h : t.FitsBelow n) :
    (Translator.mk ⟨n + 1, 1⟩).translateLocation l = .ok (l.lowered n) := by
  obtain ⟨before, after, ht, rfl⟩ := hl
  obtain ⟨tail, htail⟩ := List.dropLast_prefix piece
  have hstop : t = (before ++ piece.dropLast) ++ (tail ++ after) := by
    rw [ht]
    conv_lhs => rw [← htail]
    simp only [List.append_assoc]
  simp only [Translator.translateLocation, h.translate ht, h.translate hstop]
  rfl

theorem Finding.translated_lowered {f : Finding} (hf : t.Spells f.location f.item.piece)
    (h : t.FitsBelow n) :
    f.translated (Translator.mk ⟨n + 1, 1⟩) = .ok (f.lowered n) := by
  rw [translated, hf.translateLocation h]
  rfl

theorem Finding.mapM_translated_lowered {fs : List Finding}
    (hfs : ∀ f ∈ fs, t.Spells f.location f.item.piece) (h : t.FitsBelow n) :
    fs.mapM (·.translated (Translator.mk ⟨n + 1, 1⟩)) = .ok (fs.map (·.lowered n)) := by
  induction fs with
  | nil => rfl
  | cons f fs ih =>
    rw [List.mapM_cons, translated_lowered (hfs f List.mem_cons_self) h,
      ih fun g hg => hfs g (List.mem_cons_of_mem f hg)]
    rfl

/-- Everything read of a script moves down by as many lines as the anchor is
below the first one. -/
theorem Reading.SpelledIn.translated_lowered {r : Reading} (hr : r.SpelledIn t)
    (h : t.FitsBelow n) :
    r.translated (Translator.mk ⟨n + 1, 1⟩) = .ok (r.lowered n) := by
  rw [translated, hr.body.translateLocation h]
  show (do let members ← r.members.mapM _; _ : Except Fault Reading) = _
  rw [Finding.mapM_translated_lowered hr.members h]
  rfl

end Lowered

end FenceFacts
