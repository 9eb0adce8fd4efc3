import FenceFacts.Proofs.Extent
import FenceFacts.Proofs.LineCounts
import FenceFacts.Proofs.Placement

/-!
# FenceFacts — documents in range

A fault is a number that leaves its range or an offset without a place.  Where
the lines and columns of a document are in range there is none: every location
has its place in the document, and the line counts of all its scripts together
are no more than its lines.  What is left is an answer or a script that is
rejected.

## Results

* `contentLines_le`          — the lines of all scripts of a document.
* `ofMarkdown_isSettled`     — a Markdown document in range.
* `ofScriptFile_isSettled`   — a script file in range.
-/

namespace FenceFacts

/-- The harvest ends with an answer or with a rejected script, not with a fault. -/
def Harvest.IsSettled (g : Harvest) (source : Source) : Prop :=
  (∃ totals, g.result = .ok totals) ∨ ∃ e, g.result = .error (.parse source e)

-- ---------------------------------------------------------------------------
-- Lines of scripts
-- ---------------------------------------------------------------------------

/-- How many lines the blocks have, fences aside. -/
def contentLines : List Block → Nat
  | [] => 0
  | b :: bs => b.content.lines.length + contentLines bs

theorem contentLines_scanLines_le {t : Text} {pre ls : List Text} (h : t.lines = pre ++ ls)
    (start : Nat) : contentLines (scanLines none (spanLines start ls)).blocks ≤ ls.length := by
  induction ls using scan_induction generalizing pre start with
  | nil => exact Nat.le_refl 0
  | skip l ls hopens ih =>
    rw [scanLines_none_cons hopens]
    have hlines : t.lines = (pre ++ [l]) ++ ls := by
      rw [h, List.append_assoc]
      rfl
    have hls := ih hlines (start + l.byteLength)
    rw [List.length_cons]
    omega
  | unclosed opener body hopens hbody =>
    obtain ⟨hterm, info, tag, hopener⟩ := hopens
    rw [scanLines_opener_unclosed hterm hopener hbody]
    exact Nat.zero_le _
  | block opener body closer post hopens hbody hcloser ih =>
    obtain ⟨hterm, info, tag, hopener⟩ := hopens
    obtain ⟨f, hcloser⟩ := Option.isSome_iff_exists.mp hcloser
    -- the content has the lines between the fences, the other blocks have theirs behind them
    have hcontent : Text.lines body.flatten = body := (lines_flatten_between h).2
    have hbehind : t.lines = (pre ++ opener :: (body ++ [closer])) ++ post := by
      rw [h]
      simp only [List.append_assoc, List.cons_append, List.nil_append]
    have hpost := ih hbehind
      (start + opener.byteLength + Text.byteLength body.flatten + closer.byteLength)
    rw [scanLines_opener hterm hopener hbody hcloser, contentLines]
    simp only [Block.ofLines, hcontent, List.length_cons, List.length_append]
    omega

/-- The scripts of a text have together **no more lines than the text**. -/
theorem contentLines_le (t : Text) : contentLines (scanBlocks t).blocks ≤ t.lines.length :=
  contentLines_scanLines_le (List.nil_append _).symm 0

-- ---------------------------------------------------------------------------
-- Scripts
-- ---------------------------------------------------------------------------

section Scripts

variable {options : ExtractionOptions} {d : Document}

theorem readIn_of_fits {text : Text} {n : Nat} (h : text.FitsBelow n) (source : Source) :
    (∃ r, readIn source options text ⟨⟨n + 1, 1⟩⟩ = .ok r) ∨
      ∃ e, readIn source options text ⟨⟨n + 1, 1⟩⟩ = .error (.parse source e) := by
  rw [readIn_of_fitsBelow h]
  cases analyze options.toAnalysisOptions text with
  | error err => exact Or.inr ⟨_, rfl⟩
  | ok a => exact Or.inl ⟨_, rfl⟩

theorem readBlock_of_fits (hd : d.text.Fits) {b : Block} (hb : b ∈ d.scan.blocks) :
    (∃ r, readBlock options d b = .ok r) ∨
      ∃ e, readBlock options d b = .error (.parse d.source e) := by
  obtain ⟨before, opener, rest, hb⟩ := Block.exists_standsIn hb
  obtain ⟨hanchor, hrange⟩ := hb.of_fits hd
  rw [readBlock_eq hanchor]
  exact readIn_of_fits hrange d.source

theorem within_of_readBlock_ok {b : Block} (hblank : ¬ b.isBlank = true) {r : Reading}
    (h : readBlock options d b = .ok r) : r.lines.Within b.content.lines.length := by
  have hne : b.content ≠ [] := by
    intro hnil
    rw [Block.isBlank, hnil] at hblank
    exact hblank rfl
  obtain ⟨anchor, a, -, ha, hr⟩ := exists_of_readBlock_ok h
  rw [(Reading.of_translated_ok hr).1]
  show a.lines.Within _
  rw [(eq_of_analyze_ok ha).2.2]
  exact within_countLines hne _

-- ---------------------------------------------------------------------------
-- Documents
-- ---------------------------------------------------------------------------

theorem readBlocks_isSettled (hd : d.text.Fits) {bs : List Block}
    (hbs : ∀ b ∈ bs, b ∈ d.scan.blocks) {totals : LineTotals} {n : Nat}
    (htotals : totals.Within n) (hn : n + contentLines bs < LineTotals.bound) :
    (readBlocks options d totals bs).IsSettled d.source := by
  induction bs generalizing totals n with
  | nil => exact Or.inl ⟨totals, rfl⟩
  | cons b bs ih =>
    rw [contentLines] at hn
    have hbs' : ∀ b' ∈ bs, b' ∈ d.scan.blocks := fun b' hb' => hbs b' (List.mem_cons_of_mem b hb')
    by_cases hblank : b.isBlank = true
    · rw [readBlocks_of_blank hblank]
      exact ih hbs' htotals (by omega)
    · have hread : (∃ r, readBlock options d b = .ok r) ∨
          ∃ e, readBlock options d b = .error (.parse d.source e) :=
        readBlock_of_fits hd (hbs b List.mem_cons_self)
      rcases hread with ⟨r, hread⟩ | ⟨e, hread⟩
      · obtain ⟨totals', hadd, htotals'⟩ :=
          htotals.add (within_of_readBlock_ok hblank hread) (by omega)
        rw [readBlocks_of_ok hblank hread hadd]
        exact ih hbs' htotals' (by omega)
      · rw [readBlocks_of_error hblank hread]
        exact Or.inr ⟨e, rfl⟩

/-- A Markdown document in range is extracted or has a script that is
rejected: there are **no faults**. -/
theorem Harvest.ofMarkdown_isSettled (hd : d.text.Fits) (options : ExtractionOptions) :
    (ofMarkdown options d).IsSettled d.source := by
  have hcontent : contentLines d.scan.blocks ≤ d.text.lines.length := contentLines_le d.text
  have hlines := hd.lines_lt
  have hbound : Position.bound < LineTotals.bound := by decide
  have hzero : LineTotals.Within {} 0 := ⟨Nat.le_refl 0, Nat.le_refl 0⟩
  exact readBlocks_isSettled hd (fun b hb => hb) hzero (by omega)

/-- And so is a script file. -/
theorem Harvest.ofScriptFile_isSettled (hd : d.text.Fits) (options : ExtractionOptions) :
    (ofScriptFile options d).IsSettled d.source := by
  have hread : (∃ r, readIn d.source options d.text {} = .ok r) ∨
      ∃ e, readIn d.source options d.text {} = .error (.parse d.source e) :=
    readIn_of_fits hd.fitsBelow_zero d.source
  rcases hread with ⟨r, hr⟩ | ⟨e, he⟩
  · rw [ofScriptFile, hr]
    exact Or.inl ⟨r.lines, rfl⟩
  · rw [ofScriptFile, he]
    exact Or.inr ⟨e, rfl⟩

end Scripts

end FenceFacts
