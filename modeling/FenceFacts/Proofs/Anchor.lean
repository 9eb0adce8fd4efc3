import FenceFacts.Proofs.Block
import FenceFacts.Proofs.LineIndex

/-!
# FenceFacts — anchors

A block is anchored where its content starts, counted from the line feed
before its fence.  With that anchor the translator takes a position of the
content to the position of the same character in the document.  A fence that
opens the document has no line feed before it; the anchor of its block is
counted from the first line instead and comes out one line too low, and so do
all positions in the block.

## Results

* `anchor_eq`            — the anchor of a block, from the text before it.
* `translate_content`    — the translator finds the place in the document.
-/

namespace FenceFacts

/-- Lines by which positions in the block come out too low. -/
def Block.overshoot (b : Block) : Nat := if b.breakBefore? = none then 1 else 0

namespace Block.StandsIn

variable {d : Document} {b : Block} {before opener rest : Text}

theorem overshoot_eq {t : Text} (h : b.StandsIn t before opener rest) :
    b.overshoot = if before = [] then 1 else 0 := by
  rw [Block.overshoot, h.breakBefore_eq]
  by_cases hb : before = [] <;> simp [hb]

theorem count_opening {t : Text} (h : b.StandsIn t before opener rest) :
    (before ++ opener).count '\n' = before.count '\n' + 1 := by
  rw [List.count_append, h.opener_count]

theorem opening_closed {t : Text} (h : b.StandsIn t before opener rest) :
    (before ++ opener).IsClosed :=
  h.before_closed.append h.opener_closed

theorem text_eq_of_content {t x y : Text} (h : b.StandsIn t before opener rest)
    (hxy : b.content = x ++ y) : t = (before ++ opener ++ x) ++ (y ++ rest) := by
  rw [h.text_eq, hxy]
  simp only [List.append_assoc]

theorem line_le {t x y : Text} (h : b.StandsIn t before opener rest)
    (hxy : b.content = x ++ y) :
    (Position.first.advance x).line + (before.count '\n' + 1) ≤ t.lines.length := by
  have hle := Text.line_advance_le (h.text_eq_of_content hxy)
    (List.append_ne_nil_of_right_ne_nil y h.rest_ne_nil)
  rw [Position.first_advance_closed_append h.opening_closed, h.count_opening] at hle
  exact hle

theorem anchor_eq (h : b.StandsIn d.text before opener rest)
    (hd : d.text.lines.length < Position.bound) :
    d.anchor b = .ok ⟨before.count '\n' + 1 + b.overshoot + 1, 1⟩ := by
  have hle := h.line_le (x := []) rfl
  have hline : d.lineOf (b.breakBefore?.getD 0) = .ok (before.count '\n' + b.overshoot) := by
    rw [h.breakBefore_eq, h.overshoot_eq]
    rcases h.before_closed with rfl | hterm
    · -- nothing before the fence: the line is that of offset zero, the fence line itself
      exact Document.lineOf_append (List.nil_append d.text).symm
    · -- the line feed before the fence stands on the line that it ends
      obtain ⟨s, rfl⟩ := Text.isTerminated_iff.mp hterm
      have hne : s ++ ['\n'] ≠ [] := by simp
      have hoffset : Text.byteLength (s ++ ['\n']) - 1 = s.byteLength := by
        rw [Text.byteLength_append]
        exact Nat.add_sub_cancel _ 1
      rw [if_neg hne, if_neg hne, Option.getD_some, hoffset,
        Document.lineOf_append (h.text_eq.trans (List.append_assoc s _ _)), List.count_append]
      rfl
  have hsum : Position.sum (before.count '\n' + b.overshoot) Document.linesToContent =
      .ok (before.count '\n' + 1 + b.overshoot + 1) := by
    rw [Position.sum_of_lt]
    · show Except.ok (before.count '\n' + b.overshoot + 2) = _
      rw [Nat.add_right_comm _ 1 b.overshoot]
    · show before.count '\n' + b.overshoot + 2 < Position.bound
      rw [h.overshoot_eq]
      by_cases hb : before = []
      · rw [if_pos hb, hb]
        decide
      · rw [if_neg hb]
        have : (Position.first.advance []).line = 1 := rfl
        omega
  rw [Document.anchor, hline]
  show (do let line ← Position.sum _ _; return (⟨line, 1⟩ : Position)) = _
  rw [hsum]
  rfl

theorem advance_content (h : b.StandsIn d.text before opener rest) (x : Text) :
    Position.first.advance (before ++ opener ++ x) =
      (Position.first.advance x).lowered (before.count '\n' + 1) := by
  rw [Position.first_advance_closed_append h.opening_closed, h.count_opening]

/-- The content stays in range when it is moved to its anchor. -/
theorem fitsBelow (h : b.StandsIn d.text before opener rest)
    (hlines : d.text.lines.length + b.overshoot < Position.bound) (hcolumns : d.text.ColumnsFit) :
    b.content.FitsBelow (before.count '\n' + 1 + b.overshoot) := by
  intro x y hxy
  have hle := h.line_le hxy
  have hcolumn := hcolumns.column_advance_lt (h.text_eq_of_content hxy)
  rw [h.advance_content] at hcolumn
  exact ⟨by omega, hcolumn⟩

/-- The translator of a block finds the place of its content **in the
document**, up to the overshoot. -/
theorem translate_content (h : b.StandsIn d.text before opener rest)
    (hlines : d.text.lines.length + b.overshoot < Position.bound) (hcolumns : d.text.ColumnsFit)
    {x y : Text} (hxy : b.content = x ++ y) :
    (Translator.mk ⟨before.count '\n' + 1 + b.overshoot + 1, 1⟩).translate
        (Position.first.advance x) =
      .ok ((Position.first.advance (before ++ opener ++ x)).lowered b.overshoot) := by
  rw [(h.fitsBelow hlines hcolumns).translate hxy, h.advance_content]
  simp only [Position.lowered, Nat.add_assoc]

theorem positionOf_content (h : b.StandsIn d.text before opener rest) {x y : Text}
    (hxy : b.content = x ++ y) :
    d.positionOf (b.start + x.byteLength) =
      .ok (Position.first.advance (before ++ opener ++ x)) := by
  rw [h.start_eq, ← Text.byteLength_append]
  exact Document.positionOf_append (h.text_eq_of_content hxy)

end Block.StandsIn

end FenceFacts
