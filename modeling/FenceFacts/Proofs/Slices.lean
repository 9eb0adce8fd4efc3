import FenceFacts.Proofs.Placement

/-!
# FenceFacts — slices

Every fact of a script says what the script has and where in the document
that is: a top level its body, a line, a comment or a declaration its text.
Between the first and the last character of the location the document has
just that.  For a block whose fence opens the document the location is one
line too low, and has to be raised first.

Only a body or a line of no characters has no place.

## Results

* `facts_slice_back` — of all facts of a document that was extracted.
-/

namespace FenceFacts

-- ---------------------------------------------------------------------------
-- Pieces of a document
-- ---------------------------------------------------------------------------

def Location.raised (n : Nat) (l : Location) : Location := ⟨l.start.raised n, l.stop.raised n⟩

theorem Location.raised_lowered (m n : Nat) (l : Location) :
    (l.lowered (m + n)).raised n = l.lowered m := by
  simp only [lowered, raised, Position.lowered_add, Position.raised_lowered]

/-- From the first to the last character of the location, both included, the
document reads `piece`. -/
def Document.Holds (d : Document) (l : Location) (piece : Text) : Prop :=
  ∃ a b first last, a ≤ b ∧ d.text.charAt? a = some first ∧ d.text.charAt? b = some last ∧
    d.positionOf a = .ok l.start ∧ d.positionOf b = .ok l.stop ∧
    d.text.slice? a (b + last.utf8Size) = some piece

theorem Document.holds_of_spells {d : Document} {l : Location} {piece : Text}
    (h : d.text.Spells l piece) (hne : piece ≠ []) : d.Holds l piece := by
  obtain ⟨before, after, ht, rfl⟩ := h
  obtain ⟨first, tail, hfirst⟩ := List.exists_cons_of_ne_nil hne
  obtain ⟨front, last, hlast⟩ : ∃ front last, piece = front ++ [last] :=
    ⟨piece.dropLast, piece.getLast hne, (List.dropLast_append_getLast hne).symm⟩
  have hfront : piece.dropLast = front := by rw [hlast, List.dropLast_concat]
  have hsplit : d.text = (before ++ front) ++ (last :: after) := by
    rw [ht, hlast]
    simp only [List.append_assoc, List.singleton_append]
  refine ⟨before.byteLength, Text.byteLength (before ++ front), first, last, ?_, ?_, ?_,
    Document.positionOf_append ht, ?_, ?_⟩
  · rw [Text.byteLength_append]
    exact Nat.le_add_right _ _
  · rw [ht, hfirst]
    exact Text.charAt?_append before first (tail ++ after)
  · rw [hsplit]
    exact Text.charAt?_append (before ++ front) last after
  · rw [hfront]
    exact Document.positionOf_append hsplit
  · have hstop : Text.byteLength (before ++ front) + last.utf8Size =
        before.byteLength + piece.byteLength := by
      rw [hlast, Text.byteLength_append, Text.byteLength_append, Nat.add_assoc]
      rfl
    rw [hstop, ht]
    exact Text.slice?_append before piece after

/-- A piece of the content stands in the document as well. -/
theorem Block.StandsIn.spells {d : Document} {b : Block} {before opener rest : Text}
    (h : b.StandsIn d.text before opener rest) {l : Location} {piece : Text}
    (hl : b.content.Spells l piece) :
    d.text.Spells (l.lowered (before.count '\n' + 1)) piece := by
  obtain ⟨x, y, hxy, rfl⟩ := hl
  refine ⟨before ++ opener ++ x, y ++ rest, ?_, ?_⟩
  · rw [h.text_eq_of_content hxy, List.append_assoc piece]
  · rw [List.append_assoc _ x, h.advance_content, h.advance_content]
    rfl

-- ---------------------------------------------------------------------------
-- Facts
-- ---------------------------------------------------------------------------

/-- What the fact says a script with this content has, and where.  A body or a
line of no characters is nowhere. -/
def Fact.claim? (content : Text) : Fact → Option (Location × Text)
  | .file _ _ => none
  | .topLevel _ _ _ _ location =>
    if content.withoutTerminator = [] then none else some (location, content.withoutTerminator)
  | .line _ _ text _ location => if text = [] then none else some (location, text)
  | .comment _ _ text location => some (location, text)
  | .declaration _ _ _ name _ location => some (location, name)

/-- The label of the top level that the fact belongs to. -/
def Fact.owner? : Fact → Option Label
  | .file _ _ => none
  | .topLevel label _ _ _ _ => some label
  | .line _ owner _ _ _ => some owner
  | .comment _ owner _ _ => some owner
  | .declaration _ owner _ _ _ _ => some owner

/-- The facts of one script with this content: its top level, and those that
belong to it.  What they say the script has is in the document, `n` lines
higher than they say. -/
structure FactsOf (d : Document) (content : Text) (n : Nat) (facts : List Fact) : Prop where
  headed : ∃ label file kind isModule location rest,
    facts = .topLevel label file kind isModule location :: rest ∧
      ∀ f ∈ facts, f.owner? = some label
  held : ∀ f ∈ facts, ∀ location piece, f.claim? content = some (location, piece) →
    d.Holds (location.raised n) piece

theorem Ledger.owner?_factOf (l : Ledger) (topLevel : Label) (f : Finding) :
    (l.factOf topLevel f).owner? = some topLevel := by
  obtain ⟨item, location⟩ := f
  cases item <;> rfl

/-- The fact of a finding says what the finding says, unless it is an empty line. -/
theorem Ledger.claim?_factOf {l : Ledger} {topLevel : Label} {f : Finding} {content : Text}
    {location : Location} {piece : Text}
    (h : (l.factOf topLevel f).claim? content = some (location, piece)) :
    location = f.location ∧ piece = f.item.piece ∧
      ((∃ t t', f.item = .line t t') → piece ≠ []) := by
  obtain ⟨item, place⟩ := f
  cases item with
  | line text terminator =>
    have hline : (if text = [] then none else some (place, text)) = some (location, piece) := h
    by_cases hempty : text = []
    · rw [if_pos hempty] at hline
      cases hline
    · rw [if_neg hempty] at hline
      cases hline
      exact ⟨rfl, rfl, fun _ => hempty⟩
  | comment text =>
    cases h
    exact ⟨rfl, rfl, nofun⟩
  | declaration name kind =>
    cases h
    exact ⟨rfl, rfl, nofun⟩

/-- The facts of a reading whose pieces are in the document, `m` lines lower. -/
theorem factsOf_readingFacts {d : Document} {content : Text} {m n : Nat} {r : Reading}
    (hr : r.SpelledIn content)
    (hd : ∀ location piece, content.Spells location piece →
      d.text.Spells (location.lowered m) piece)
    (l : Ledger) (file : Label) (kind : TopLevelKind) :
    FactsOf d content n (l.readingFacts file kind (r.lowered (m + n))) := by
  have hholds {location : Location} {piece : Text} (h : content.Spells location piece)
      (hne : piece ≠ []) : d.Holds ((location.lowered (m + n)).raised n) piece := by
    rw [Location.raised_lowered]
    exact Document.holds_of_spells (hd location piece h) hne
  refine ⟨⟨l.next, file, kind, _, _, _, rfl, fun f hf => ?_⟩,
    fun f hf location piece hclaim => ?_⟩
  · rcases List.mem_cons.mp hf with rfl | hf
    · rfl
    · obtain ⟨finding, -, l', rfl⟩ := Ledger.exists_of_mem_factsOf hf
      exact l'.owner?_factOf l.next finding
  · rcases List.mem_cons.mp hf with rfl | hf
    -- the top level claims the body, every other fact what its finding is made of
    · have hbody : (if content.withoutTerminator = [] then none else
          some (r.body.lowered (m + n), content.withoutTerminator)) = some (location, piece) :=
        hclaim
      by_cases hempty : content.withoutTerminator = []
      · rw [if_pos hempty] at hbody
        cases hbody
      · rw [if_neg hempty] at hbody
        cases hbody
        exact hholds hr.body hempty
    · obtain ⟨lowered, hmem, l', rfl⟩ := Ledger.exists_of_mem_factsOf hf
      obtain ⟨finding, hfinding, rfl⟩ := List.mem_map.mp hmem
      obtain ⟨rfl, rfl, hline⟩ := Ledger.claim?_factOf hclaim
      refine hholds (hr.members finding hfinding) ?_
      by_cases hitem : ∃ t t', finding.item = .line t t'
      · exact hline hitem
      · exact hr.nonempty finding hfinding fun t t' h => hitem ⟨t, t', h⟩

-- ---------------------------------------------------------------------------
-- Documents
-- ---------------------------------------------------------------------------

theorem Text.isBlank_of_withoutTerminator_eq_nil {t : Text} (h : t.withoutTerminator = []) :
    t.isBlank = true := by
  have ht : t.terminator = t := by
    have := withoutTerminator_append_terminator t
    rwa [h] at this
  rw [isBlank, List.all_eq_true]
  intro c hc
  rw [← ht, terminator, List.mem_reverse] at hc
  have hbreak := List.all_eq_true.mp List.all_takeWhile c hc
  simp only [isLineBreak, Bool.or_eq_true, beq_iff_eq] at hbreak
  rcases hbreak with rfl | rfl <;> decide

section Documents

variable {d : Document} {options : ExtractionOptions}

theorem factsOf_readBlock (hd : d.text.Fits) {b : Block} (hb : b ∈ d.scan.blocks) {r : Reading}
    (h : readBlock options d b = .ok r) (l : Ledger) (file : Label) (kind : TopLevelKind) :
    FactsOf d b.content b.overshoot (l.readingFacts file kind r) := by
  obtain ⟨before, opener, rest, hb⟩ := Block.exists_standsIn hb
  obtain ⟨anchor, a, hanchor, ha, hr⟩ := exists_of_readBlock_ok h
  obtain ⟨hanchor', hrange⟩ := hb.of_fits hd
  have hspelled := Reading.spelledIn_ofScript ha
  rw [hanchor'] at hanchor
  obtain rfl := Except.ok.inj hanchor
  rw [hspelled.translated_lowered hrange] at hr
  obtain rfl := Except.ok.inj hr
  exact factsOf_readingFacts hspelled (fun location piece => hb.spells) l file kind

theorem exists_groups (hd : d.text.Fits) {bs : List Block}
    (hbs : ∀ b ∈ bs, b ∈ d.scan.blocks ∧ ¬ b.isBlank = true) {rs : List Reading}
    (h : List.Forall₂ (fun b r => readBlock options d b = .ok r) bs rs) (l : Ledger)
    (file : Label) (kind : TopLevelKind) :
    ∃ groups : List (List Fact), l.readingsFacts file kind rs = groups.flatten ∧
      List.Forall₂ (fun b facts => b.content.withoutTerminator ≠ [] ∧
        FactsOf d b.content b.overshoot facts) bs groups := by
  induction h generalizing l with
  | nil => exact ⟨[], rfl, List.Forall₂.nil⟩
  | @cons b r bs rs hread _ ih =>
    obtain ⟨groups, hgroups, hfacts⟩ :=
      ih (fun b hb => hbs b (List.mem_cons_of_mem _ hb)) (l.recordReading r)
    obtain ⟨hb, hblank⟩ := hbs b List.mem_cons_self
    refine ⟨l.readingFacts file kind r :: groups, ?_, hfacts.cons ⟨fun hempty => ?_, ?_⟩⟩
    · rw [Ledger.readingsFacts, hgroups, List.flatten_cons]
    · exact hblank (Text.isBlank_of_withoutTerminator_eq_nil hempty)
    · exact factsOf_readBlock hd hb hread l file kind

theorem Location.lowered_zero (l : Location) : l.lowered 0 = l := rfl

theorem factsOf_readIn (hd : d.text.Fits) {r : Reading}
    (h : readIn d.source options d.text {} = .ok r) (l : Ledger) (file : Label)
    (kind : TopLevelKind) : FactsOf d d.text 0 (l.readingFacts file kind r) := by
  obtain ⟨a, ha, hr⟩ := exists_of_readIn_ok h
  have hspelled := Reading.spelledIn_ofScript ha
  have hlowered := hspelled.translated_lowered (n := 0) hd.fitsBelow_zero
  rw [show Translator.mk ⟨0 + 1, 1⟩ = {} from rfl, hr] at hlowered
  obtain rfl := Except.ok.inj hlowered
  exact factsOf_readingFacts (m := 0) hspelled (fun location piece hl => hl) l file kind

end Documents

/-- Every fact of an accepted document **slices back**: from its location the
document gives the body, line, comment or name that it tells of, one line
higher for a block whose fence opens the document. -/
theorem facts_slice_back {d : Document} (hd : d.text.Fits) {σ : Type} [FactStore σ]
    (options : ExtractionOptions) (s s' : Sink σ) (totals : LineTotals) :
    (extractMarkdown options d s = .ok totals s' →
      ∃ groups : List (List Fact),
        FactStore.writeAll (.file ⟨s.lastLabel + 1⟩ d.source.path :: groups.flatten) s.store =
          .ok () s'.store ∧
        List.Forall₂ (fun b facts => b.content.withoutTerminator ≠ [] ∧
          FactsOf d b.content b.overshoot facts) (scriptBlocks d.scan.blocks) groups) ∧
    (extractScriptFile options d s = .ok totals s' →
      ∃ facts : List Fact,
        FactStore.writeAll (.file ⟨s.lastLabel + 1⟩ d.source.path :: facts) s.store =
          .ok () s'.store ∧
        FactsOf d d.text 0 facts) := by
  constructor
  · intro hrun
    obtain ⟨hresult, -, hwrite⟩ := (markdown_follows options d).of_ok hrun
    obtain ⟨groups, hgroups, hfacts⟩ := exists_groups hd (fun b hb => mem_scriptBlocks.mp hb)
      (readings_of_ok hresult) (Harvest.ledger s.lastLabel) ⟨s.lastLabel + 1⟩ .inlineScript
    refine ⟨groups, ?_, hfacts⟩
    rw [← hgroups]
    exact hwrite
  · intro hrun
    obtain ⟨hresult, -, hwrite⟩ := (scriptFile_follows options d).of_ok hrun
    obtain ⟨r, hread⟩ := Harvest.exists_of_single_ok hresult
    rw [Harvest.ofScriptFile, hread, Harvest.facts, Harvest.single,
      Ledger.readingsFacts_singleton] at hwrite
    exact ⟨_, hwrite, factsOf_readIn hd hread _ _ _⟩

/-- A document with a comment that ends in a character of two bytes. -/
def commented : Document :=
  ⟨⟨"doc.md".toList⟩, ['\x60', '\x60', '\x60', 'j', 's', '\n', 'l', 'e', 't', ' ', 'x', '/', '/',
    '\u00e9', '\n', '\x60', '\x60', '\x60', '\n']⟩

theorem facts_slice_back_commented :
    ∃ (s' : Sink FactList) (groups : List (List Fact)),
      extractMarkdown {} commented ({ store := {} } : Sink FactList) = .ok ⟨1, 1⟩ s' ∧
      s'.store.facts = .file ⟨1⟩ commented.source.path :: groups.flatten ∧
      List.Forall₂ (fun b facts => b.content.withoutTerminator ≠ [] ∧
        FactsOf commented b.content b.overshoot facts) (scriptBlocks commented.scan.blocks)
        groups := by
  have hfits : commented.text.Fits := ⟨by decide, by unfold Text.ColumnsFit; decide⟩
  have hresult : (Harvest.ofMarkdown {} commented).result = .ok ⟨1, 1⟩ := by decide +kernel
  obtain ⟨notes, hrun⟩ := (markdown_follows {} commented).delivers hresult
    ({ store := {} } : Sink FactList)
  rw [FactStore.writeAll_factList] at hrun
  obtain ⟨groups, hwrite, hfacts⟩ := (facts_slice_back hfits {} _ _ _).1 hrun
  rw [FactStore.writeAll_factList] at hwrite
  injection hwrite with _ hstore
  exact ⟨_, groups, hrun, (congrArg FactList.facts hstore).symm, hfacts⟩

end FenceFacts
