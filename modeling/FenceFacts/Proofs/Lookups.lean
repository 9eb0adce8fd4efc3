import FenceFacts.Proofs.LineCounts
import FenceFacts.Proofs.Tiling
import Mathlib.Data.List.TakeWhile

/-!
# FenceFacts — looking lines up

A line index is asked for lines by offset and by number.  Every offset has a
line: the first line starts at zero, so the lines that start at or before an
offset are never none.  Every number of a line has a text: the offsets that
the lines start at cut the text between characters.  And the offsets of a
token are told apart from the end of the script, where a last line feed leaves
an empty line that does not count: a token never reaches onto that one.

## Results

* `exists_line_of_offset`  — the line of an offset.
* `slice?_of_getElem?_lines` — the text of a line.
* `lineRange_lt`           — the lines of a token count.
-/

namespace FenceFacts

-- ---------------------------------------------------------------------------
-- The texts of the lines
-- ---------------------------------------------------------------------------

theorem exists_of_getElem?_indexed {start k : Nat} {ls : List Text} {line : IndexedLine}
    (h : (indexed start ls)[k]? = some line) :
    ∃ before after, ls = before ++ line.raw :: after ∧ k = before.length ∧
      line.start = start + Text.byteLength before.flatten := by
  induction ls generalizing start k with
  | nil => cases h
  | cons l ls ih =>
    cases k with
    | zero =>
      obtain rfl := Option.some.inj h
      exact ⟨[], ls, rfl, rfl, rfl⟩
    | succ k =>
      obtain ⟨before, after, rfl, rfl, hstart⟩ := ih h
      refine ⟨l :: before, after, rfl, rfl, ?_⟩
      rw [hstart, List.flatten_cons, Text.byteLength_append, Nat.add_assoc]

namespace LineIndex

/-- An index holds its text, cut into lines. -/
theorem exists_indexed_eq_lines (t : Text) :
    ∃ ls : List Text, ls.flatten = t ∧ (ofText t).lines = indexed 0 ls := by
  obtain ⟨a, m, rfl, ha, hm⟩ := Text.exists_closed_append t
  refine ⟨a.lines ++ [m], ?_, ?_⟩
  · rw [List.flatten_append, Text.flatten_lines, List.flatten_singleton]
  · rw [ofText, indexLines_append ha, indexLines_of_not_mem hm, indexed_append, Text.flatten_lines]
    rfl

/-- The offset that the line with this number stops at: where the next one
starts, or the end of the text. -/
def stopOf (index : LineIndex) (k : Nat) : Nat :=
  match index.lines[k + 1]? with
  | some next => next.start
  | none => index.byteLength

/-- The lines of an index are **slices** of the text, from the offset where
one starts to the one where the next one does. -/
theorem slice?_of_getElem?_lines {t : Text} {k : Nat} {line : IndexedLine}
    (h : (ofText t).lines[k]? = some line) :
    t.IsBoundary line.start ∧ t.IsBoundary ((ofText t).stopOf k) ∧
      t.slice? line.start ((ofText t).stopOf k) = some line.raw := by
  obtain ⟨ls, rfl, hls⟩ := exists_indexed_eq_lines t
  rw [hls] at h
  obtain ⟨before, after, rfl, rfl, hstart⟩ := exists_of_getElem?_indexed h
  rw [Nat.zero_add] at hstart
  have hsplit : (before ++ line.raw :: after).flatten =
      before.flatten ++ (line.raw ++ after.flatten) := by
    rw [List.flatten_append, List.flatten_cons]
  have hstop : (ofText (before ++ line.raw :: after).flatten).stopOf before.length =
      Text.byteLength before.flatten + line.raw.byteLength := by
    have hlater : (indexed 0 (before ++ line.raw :: after))[before.length + 1]? =
        (indexed (Text.byteLength before.flatten + line.raw.byteLength) after)[0]? := by
      rw [indexed_append, List.getElem?_append_right (by rw [length_indexed]; omega),
        length_indexed, Nat.add_sub_cancel_left, indexed, List.getElem?_cons_succ, Nat.zero_add]
    rw [stopOf, hls, hlater]
    cases after with
    | nil =>
      rw [hsplit, List.flatten_nil, List.append_nil]
      exact Text.byteLength_append _ _
    | cons next after => rfl
  rw [hstart, hstop, hsplit]
  refine ⟨Text.isBoundary_append _ _, ?_, Text.slice?_append _ _ _⟩
  rw [← Text.byteLength_append, ← List.append_assoc]
  exact Text.isBoundary_append _ _

-- ---------------------------------------------------------------------------
-- The lines of offsets
-- ---------------------------------------------------------------------------

/-- Every offset has **a line**, which starts at or before it. -/
theorem exists_line_of_offset (t : Text) (offset : Nat) :
    0 < ((ofText t).linesUpTo offset).length ∧
      ∃ line, (ofText t).lines[(ofText t).lineOf offset]? = some line ∧ line.start ≤ offset := by
  obtain ⟨raw, ls, hls, -⟩ := exists_indexLines_cons 0 t
  have hfirst : (ofText t).lines = ⟨0, raw⟩ :: ls := hls
  have hpos : 0 < ((ofText t).linesUpTo offset).length := by
    rw [linesUpTo, hfirst, List.takeWhile_cons_of_pos (by simp), List.length_cons]
    exact Nat.succ_pos _
  -- it is the last of the lines up to the offset, and those are the first lines
  have hlast : (ofText t).lineOf offset < ((ofText t).linesUpTo offset).length :=
    Nat.sub_lt hpos Nat.one_pos
  have hfront : (ofText t).linesUpTo offset <+: (ofText t).lines := List.takeWhile_prefix _
  refine ⟨hpos, ((ofText t).linesUpTo offset)[(ofText t).lineOf offset], ?_, ?_⟩
  · rw [hfront.getElem hlast]
    exact List.getElem?_eq_getElem _
  · exact of_decide_eq_true
      (List.mem_takeWhile_imp (p := fun line : IndexedLine => line.start ≤ offset)
        (List.getElem_mem hlast))

theorem lineOf_mono (index : LineIndex) {m n : Nat} (h : m ≤ n) :
    index.lineOf m ≤ index.lineOf n := by
  have hagain : (index.linesUpTo n).takeWhile (·.start ≤ m) = index.linesUpTo m := by
    rw [linesUpTo, linesUpTo, List.takeWhile_takeWhile]
    congr 1
    funext line
    have hstart : line.start ≤ m → line.start ≤ n := fun hm => Nat.le_trans hm h
    simpa using hstart
  have hfront : index.linesUpTo m <+: index.linesUpTo n :=
    hagain ▸ List.takeWhile_prefix _
  exact Nat.sub_le_sub_right hfront.length_le 1

/-- Before the end of its text an offset lies on a line that **counts**. -/
theorem lineOf_lt_lineCount {t : Text} {offset : Nat} (h : offset < t.byteLength) :
    (ofText t).lineOf offset < (ofText t).lineCount := by
  have ht : t ≠ [] := by
    rintro rfl
    exact Nat.not_lt_zero offset h
  obtain ⟨hpos, -⟩ := exists_line_of_offset t offset
  rw [lineCount_ofText ht]
  suffices hle : ((ofText t).linesUpTo offset).length ≤ t.lines.length from
    Nat.lt_of_lt_of_le (Nat.sub_lt hpos Nat.one_pos) hle
  obtain ⟨a, m, rfl, ha, hm⟩ := Text.exists_closed_append t
  rw [linesUpTo, lines_ofText_append ha hm, Text.lines_append ha, List.length_append]
  by_cases hne : m = []
  · -- the empty line at the end starts where the text ends, behind the offset
    subst hne
    rw [List.append_nil] at h
    have hlast : [(⟨a.byteLength, []⟩ : IndexedLine)].takeWhile (·.start ≤ offset) = [] :=
      List.takeWhile_cons_of_neg (by simp [h])
    rw [List.takeWhile_append, hlast, List.append_nil]
    have hfront := (List.takeWhile_prefix (l := indexed 0 a.lines) (·.start ≤ offset)).length_le
    rw [length_indexed] at hfront
    split
    · exact (length_indexed 0 a.lines).le
    · exact hfront
  · have hfront := (List.takeWhile_prefix (l := indexed 0 a.lines ++ [⟨a.byteLength, m⟩])
      (·.start ≤ offset)).length_le
    rw [List.length_append, length_indexed] at hfront
    rw [Text.lines_of_not_mem hm hne]
    exact hfront

end LineIndex

/-- A line is cut where its terminator starts. -/
theorem IndexedLine.dropBytes?_text (line : IndexedLine) :
    line.raw.dropBytes? line.text.byteLength = some line.terminator := by
  have h := Text.dropBytes?_append line.text line.terminator
  rwa [IndexedLine.text, IndexedLine.terminator, Text.withoutTerminator_append_terminator] at h

-- ---------------------------------------------------------------------------
-- The lines of tokens
-- ---------------------------------------------------------------------------

/-- A token reaches onto **lines that count**, from the first on. -/
theorem Token.LiesIn.lineRange_lt {script : Text} {t : Token} (h : t.LiesIn script) :
    (t.lineRange (.ofText script)).1 ≤ (t.lineRange (.ofText script)).2 ∧
      (t.lineRange (.ofText script)).2 < (LineIndex.ofText script).lineCount := by
  obtain ⟨hne, before, after, rfl, hspan⟩ := h
  have hpos : 0 < t.text.byteLength :=
    Nat.pos_of_ne_zero fun hzero => hne (Text.byteLength_eq_zero_iff.mp hzero)
  refine ⟨LineIndex.lineOf_mono _ (Nat.le_max_right _ _), LineIndex.lineOf_lt_lineCount ?_⟩
  rw [hspan, Text.byteLength_append, Text.byteLength_append]
  dsimp only
  omega

end FenceFacts
