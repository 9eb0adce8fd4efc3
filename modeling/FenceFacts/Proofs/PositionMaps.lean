import FenceFacts.Proofs.LineIndex
import Mathlib.Data.List.DropRight

/-!
# FenceFacts — from offsets to positions

A snippet looks the lines of its offsets up in an index of their starts, and a
document is read from its start.  What is kept of a large text may also answer
two questions alone, on which line an offset lies and where a line starts; then
the characters between the two are counted.  All three find the same position,
which the text before the offset tells: its line feeds give the line, and what
stands behind the last of them gives the column.  Reading on never moves back,
so positions are in the order of their offsets.

## Results

* `first_advance_eq` — the position behind a text.
* `lt_advance`       — reading on moves forwards.
* `LineLookup.positionOf_append` — positions by two questions.
* `position_maps_agree` — the three ways, and their order.
-/

namespace FenceFacts

-- ---------------------------------------------------------------------------
-- The position behind a text
-- ---------------------------------------------------------------------------

/-- What stands behind the last line feed is the piece behind a closed text. -/
theorem Text.rtakeWhile_closed_append {a m : Text} (ha : a.IsClosed) (hm : '\n' ∉ m) :
    (a ++ m).rtakeWhile (· ≠ '\n') = m := by
  have hpiece : ∀ c ∈ m.reverse, decide (c ≠ '\n') = true := by
    intro c hc
    rw [decide_eq_true_eq]
    rintro rfl
    exact hm (List.mem_reverse.mp hc)
  have hclosed : a.rtakeWhile (· ≠ '\n') = [] := by
    rcases ha with rfl | ha
    · rfl
    · obtain ⟨s, rfl⟩ := Text.isTerminated_iff.mp ha
      exact List.rtakeWhile_concat_neg _ _ _ (by simp)
  calc (a ++ m).rtakeWhile (· ≠ '\n')
      = (m.reverse ++ a.reverse.takeWhile (· ≠ '\n')).reverse := by
        rw [List.rtakeWhile, List.reverse_append, List.takeWhile_append_of_pos hpiece]
    _ = a.rtakeWhile (· ≠ '\n') ++ m := by
        rw [List.reverse_append, List.reverse_reverse, List.rtakeWhile]
    _ = m := by
        rw [hclosed, List.nil_append]

namespace Position

/-- Line feeds give the line, the characters behind the last of them the
column. -/
theorem first_advance_eq (before : Text) :
    first.advance before =
      ⟨1 + before.count '\n', 1 + (before.rtakeWhile (· ≠ '\n')).length⟩ := by
  obtain ⟨a, m, rfl, ha, hm⟩ := Text.exists_closed_append before
  rw [first_advance_append ha hm, Text.rtakeWhile_closed_append ha hm, List.count_append,
    List.count_eq_zero_of_not_mem hm, Nat.add_comm 1, Nat.add_comm 1, Nat.add_zero]

-- ---------------------------------------------------------------------------
-- Order
-- ---------------------------------------------------------------------------

theorem lt_iff {p q : Position} :
    p < q ↔ p.line < q.line ∨ p.line = q.line ∧ p.column < q.column :=
  Iff.rfl

theorem lt_irrefl (p : Position) : ¬ p < p := by
  rw [lt_iff]
  omega

theorem lt_trans {p q r : Position} (hpq : p < q) (hqr : q < r) : p < r := by
  rw [lt_iff] at *
  omega

theorem lt_after (p : Position) (c : Char) : p < p.after c := by
  rw [lt_iff, after]
  split
  · exact Or.inl (Nat.lt_succ_self _)
  · exact Or.inr ⟨rfl, Nat.lt_succ_self _⟩

/-- Reading on **moves forwards**. -/
theorem lt_advance {piece : Text} (h : piece ≠ []) (p : Position) : p < p.advance piece := by
  induction piece generalizing p with
  | nil => exact absurd rfl h
  | cons c cs ih =>
    rw [advance_cons]
    by_cases hcs : cs = []
    · rw [hcs, advance_nil]
      exact lt_after p c
    · exact lt_trans (lt_after p c) (ih hcs (p.after c))

end Position

-- ---------------------------------------------------------------------------
-- Offsets past the end
-- ---------------------------------------------------------------------------

/-- Past the end a text is read **to its end**. -/
theorem Text.walk_of_le {t : Text} {n : Nat} (h : t.byteLength ≤ n) (p : Position) :
    t.walk n p = some (p.advance t) := by
  induction t generalizing n p with
  | nil => cases n <;> rfl
  | cons c cs ih =>
    rw [Text.byteLength_cons] at h
    obtain ⟨k, rfl⟩ := Nat.exists_eq_add_of_le h
    rw [Nat.add_assoc, Text.walk_cons, ih (Nat.le_add_right _ _), Position.advance_cons]

theorem Document.positionOf_min (d : Document) (n : Nat) :
    d.positionOf (min n d.text.byteLength) = d.positionOf n := by
  rcases Nat.le_total n d.text.byteLength with h | h
  · rw [Nat.min_eq_left h]
  · rw [Nat.min_eq_right h, positionOf, positionOf, Text.walk_of_le h,
      Text.walk_of_le (Nat.le_refl _)]

theorem LineIndex.positionOf_min (index : LineIndex) (n : Nat) :
    index.positionOf (min n index.byteLength) = index.positionOf n := by
  rw [positionOf, positionOf, Nat.min_assoc, Nat.min_self]

theorem Text.min_byteLength {t before after : Text} (h : t = before ++ after) :
    min before.byteLength t.byteLength = before.byteLength := by
  rw [h, Text.byteLength_append, Nat.min_eq_left (Nat.le_add_right _ _)]

/-- A boundary, or what is past the end, counts as a boundary. -/
theorem Text.exists_append_of_min {t : Text} {n : Nat} (h : t.IsBoundary n ∨ t.byteLength ≤ n) :
    ∃ before after, t = before ++ after ∧ min n t.byteLength = before.byteLength := by
  rcases h with ⟨before, after, hsplit, rfl⟩ | h
  · exact ⟨before, after, hsplit, Text.min_byteLength hsplit⟩
  · exact ⟨t, [], (List.append_nil t).symm, Nat.min_eq_right h⟩

-- ---------------------------------------------------------------------------
-- Two questions
-- ---------------------------------------------------------------------------

/-- What tells of a text on which line an offset lies and where a line starts.
Lines are counted from zero: an offset has as many before it as line feeds. -/
structure LineLookup (t : Text) where
  lineAt : Nat → Nat
  startOf : Nat → Nat
  lineAt_eq : ∀ before after, t = before ++ after →
    lineAt before.byteLength = before.count '\n'
  startOf_eq : ∀ before after, t = before ++ after → before.IsClosed →
    startOf (before.count '\n') = before.byteLength

namespace LineLookup

variable {t before after : Text}

/-- The answers that the text itself gives. -/
def ofText (t : Text) : LineLookup t where
  lineAt n := ((t.takeBytes? n).getD t).count '\n'
  startOf k := Text.byteLength (t.lines.take k).flatten
  lineAt_eq before after h := by
    rw [h, Text.takeBytes?_append]
    rfl
  startOf_eq before after h hclosed := by
    rw [h, Text.lines_append hclosed, ← Text.length_lines_of_closed hclosed, List.take_left,
      Text.flatten_lines]

/-- One-based line of an offset.  Offsets past the end count as the end. -/
def lineOf (l : LineLookup t) (offset : Nat) : Nat := l.lineAt (min offset t.byteLength) + 1

/-- Position of an offset: its line, and the characters from the start of the
line up to it. -/
def positionOf (l : LineLookup t) (offset : Nat) : Option Position :=
  let offset := min offset t.byteLength
  let line := l.lineAt offset
  (t.slice? (l.startOf line) offset).map fun before => ⟨line + 1, before.length + 1⟩

theorem lineOf_min (l : LineLookup t) (n : Nat) : l.lineOf (min n t.byteLength) = l.lineOf n := by
  rw [lineOf, lineOf, Nat.min_assoc, Nat.min_self]

theorem positionOf_min (l : LineLookup t) (n : Nat) :
    l.positionOf (min n t.byteLength) = l.positionOf n := by
  rw [positionOf, positionOf, Nat.min_assoc, Nat.min_self]

theorem lineOf_append (l : LineLookup t) (h : t = before ++ after) :
    l.lineOf before.byteLength = before.count '\n' + 1 := by
  rw [lineOf, Text.min_byteLength h, l.lineAt_eq before after h]

/-- Asking two questions finds the position that **reading** finds. -/
theorem positionOf_append (l : LineLookup t) (h : t = before ++ after) :
    l.positionOf before.byteLength = some (Position.first.advance before) := by
  have hline := l.lineAt_eq before after h
  obtain ⟨a, m, rfl, ha, hm⟩ := Text.exists_closed_append before
  have hstart : l.startOf (a.count '\n') = a.byteLength :=
    l.startOf_eq a (m ++ after) (by rw [h, List.append_assoc]) ha
  have hslice : t.slice? a.byteLength (Text.byteLength (a ++ m)) = some m := by
    rw [h, List.append_assoc, Text.byteLength_append]
    exact Text.slice?_append a m after
  rw [List.count_append, List.count_eq_zero_of_not_mem hm, Nat.add_zero] at hline
  rw [positionOf, Text.min_byteLength h]
  simp only [hline, hstart, hslice, Option.map_some, Position.first_advance_append ha hm]

end LineLookup

-- ---------------------------------------------------------------------------
-- The maps
-- ---------------------------------------------------------------------------

/-- Positions are **in the order of their offsets**. -/
theorem LineIndex.positionOf_lt {t : Text} {m n : Nat} (hm : t.IsBoundary m) (hn : t.IsBoundary n)
    (h : m < n) : (ofText t).positionOf m < (ofText t).positionOf n := by
  obtain ⟨before, after, hsplit, rfl⟩ := hm
  obtain ⟨before', after', hsplit', rfl⟩ := hn
  obtain ⟨piece, rfl, -⟩ :=
    Text.exists_append_of_byteLength_le (hsplit.symm.trans hsplit') (Nat.le_of_lt h)
  have hpiece : piece ≠ [] := by
    rintro rfl
    rw [List.append_nil] at h
    exact Nat.lt_irrefl _ h
  have hfirst := positionOf_ofText_append before after
  have hsecond := positionOf_ofText_append (before ++ piece) after'
  rw [← hsplit] at hfirst
  rw [← hsplit', Position.advance_append] at hsecond
  rw [hfirst, hsecond]
  exact Position.lt_advance hpiece _

/-- At a boundary and past the end an offset has **the same position** in every
way, which the text before it tells; and on boundaries the positions are in the
order of the offsets, so no two boundaries share one. -/
theorem position_maps_agree (d : Document) :
    (∀ n, d.text.IsBoundary n ∨ d.text.byteLength ≤ n →
      ∃ before after p, d.text = before ++ after ∧
        before.byteLength = min n d.text.byteLength ∧
        p = ⟨1 + before.count '\n', 1 + (before.rtakeWhile (· ≠ '\n')).length⟩ ∧
        (LineIndex.ofText d.text).positionOf n = p ∧
        d.positionOf n = .ok p ∧ d.lineOf n = .ok p.line ∧
        ∀ l : LineLookup d.text, l.positionOf n = some p ∧ l.lineOf n = p.line) ∧
    (∀ m n, d.text.IsBoundary m → d.text.IsBoundary n → m < n →
      (LineIndex.ofText d.text).positionOf m < (LineIndex.ofText d.text).positionOf n) ∧
    ∀ m n, d.text.IsBoundary m → d.text.IsBoundary n →
      (LineIndex.ofText d.text).positionOf m = (LineIndex.ofText d.text).positionOf n → m = n := by
  have horder (m n : Nat) (hm : d.text.IsBoundary m) (hn : d.text.IsBoundary n) (h : m < n) :=
    LineIndex.positionOf_lt hm hn h
  refine ⟨fun n hn => ?_, horder, fun m n hm hn heq => ?_⟩
  · obtain ⟨before, after, hsplit, hbytes⟩ := Text.exists_append_of_min hn
    refine ⟨before, after, Position.first.advance before, hsplit, hbytes.symm,
      Position.first_advance_eq before, ?_, ?_, ?_, fun l => ⟨?_, ?_⟩⟩
    · rw [← LineIndex.positionOf_min]
      show (LineIndex.ofText d.text).positionOf (min n d.text.byteLength) = _
      rw [hbytes, hsplit, LineIndex.positionOf_ofText_append]
    · rw [← Document.positionOf_min, hbytes, Document.positionOf_append hsplit]
    · rw [Document.lineOf, ← Document.positionOf_min, hbytes, Document.positionOf_append hsplit]
      rfl
    · rw [← LineLookup.positionOf_min, hbytes, LineLookup.positionOf_append l hsplit]
    · rw [← LineLookup.lineOf_min, hbytes, LineLookup.lineOf_append l hsplit,
        Position.line_advance, Nat.add_comm]
      rfl
  · rcases Nat.lt_trichotomy m n with h | h | h
    · exact absurd (heq ▸ horder m n hm hn h) (Position.lt_irrefl _)
    · exact h
    · exact absurd (heq ▸ horder n m hn hm h) (Position.lt_irrefl _)

/-- Two lines, the first with a character of two bytes, and a line feed at the
end. -/
def accented : Document := ⟨⟨"a.md".toList⟩, ['ä', 'b', '\n', 'c', '\n']⟩

/-- Past its end, and before and behind its first line feed. -/
theorem position_maps_agree_accented :
    (LineIndex.ofText accented.text).positionOf 99 = ⟨3, 1⟩ ∧
    accented.positionOf 99 = .ok ⟨3, 1⟩ ∧ accented.lineOf 99 = .ok 3 ∧
    (LineLookup.ofText accented.text).positionOf 99 = some ⟨3, 1⟩ ∧
    accented.positionOf 3 = .ok ⟨1, 3⟩ ∧ accented.positionOf 4 = .ok ⟨2, 1⟩ ∧
    (LineIndex.ofText accented.text).positionOf 3 <
      (LineIndex.ofText accented.text).positionOf 4 := by
  obtain ⟨hmaps, horder, -⟩ := position_maps_agree accented
  have hfeed : accented.text.IsBoundary 3 := ⟨['ä', 'b'], ['\n', 'c', '\n'], rfl, rfl⟩
  have hnext : accented.text.IsBoundary 4 := ⟨['ä', 'b', '\n'], ['c', '\n'], rfl, rfl⟩
  have hend : (LineIndex.ofText accented.text).positionOf 99 = ⟨3, 1⟩ := by decide
  obtain ⟨-, -, p, -, -, -, hindex, hreading, hline, hlookup⟩ := hmaps 99 (Or.inr (by decide))
  obtain rfl : p = ⟨3, 1⟩ := hindex.symm.trans hend
  obtain ⟨-, -, q, -, -, -, hindex', hreading', -⟩ := hmaps 3 (Or.inl hfeed)
  obtain rfl : q = ⟨1, 3⟩ := hindex'.symm.trans (by decide)
  obtain ⟨-, -, r, -, -, -, hindex'', hreading'', -⟩ := hmaps 4 (Or.inl hnext)
  obtain rfl : r = ⟨2, 1⟩ := hindex''.symm.trans (by decide)
  exact ⟨hend, hreading, hline, (hlookup _).1, hreading', hreading'',
    horder 3 4 hfeed hnext (by decide)⟩

end FenceFacts
