import FenceFacts.Proofs.Position
import FenceFacts.Script.LineIndex

/-!
# FenceFacts — the line index

A line index finds positions by looking for the last line that starts at or
before an offset; a document finds them by reading from its start.  The two
agree at every boundary.  A boundary splits the text before it into the lines
that are complete there and a piece of the next one; the index holds the same
lines, and the piece is what its column counts.

## Results

* `positionOf_ofText_append` — the index and the reading agree.
* `countedLines_ofText`      — the lines that count are the lines of the text.
* `flatten_raw_countedLines` — they make up the text.
* `exists_of_mem_countedLines` — where a line that counts lies.
-/

namespace FenceFacts

/-- Whole lines one behind the other, from byte `start` on. -/
def indexed (start : Nat) : List Text → List IndexedLine
  | [] => []
  | l :: ls => ⟨start, l⟩ :: indexed (start + l.byteLength) ls

-- ---------------------------------------------------------------------------
-- The lines of an index
-- ---------------------------------------------------------------------------

theorem indexLines_newline_cons (start : Nat) (cs : Text) :
    indexLines start ('\n' :: cs) = ⟨start, ['\n']⟩ :: indexLines (start + 1) cs := by
  rw [indexLines, if_pos rfl]

theorem indexLines_cons_of_ne {start : Nat} {c : Char} {cs : Text} (hc : c ≠ '\n')
    {l : IndexedLine} {ls : List IndexedLine} (h : indexLines (start + c.utf8Size) cs = l :: ls) :
    indexLines start (c :: cs) = ⟨start, c :: l.raw⟩ :: ls := by
  rw [indexLines, if_neg hc, h]

/-- The first line starts where the text does, every other one behind it. -/
theorem exists_indexLines_cons (start : Nat) (t : Text) :
    ∃ raw ls, indexLines start t = ⟨start, raw⟩ :: ls ∧ ∀ x ∈ ls, start < x.start := by
  induction t generalizing start with
  | nil => exact ⟨[], [], rfl, fun x hx => absurd hx List.not_mem_nil⟩
  | cons c cs ih =>
    by_cases hc : c = '\n'
    · subst hc
      obtain ⟨raw, ls, hls, hlt⟩ := ih (start + 1)
      refine ⟨['\n'], ⟨start + 1, raw⟩ :: ls, ?_, ?_⟩
      · rw [indexLines_newline_cons, hls]
      · intro x hx
        rcases List.mem_cons.mp hx with rfl | hx
        · exact Nat.lt_succ_self start
        · exact Nat.lt_of_succ_lt (hlt x hx)
    · obtain ⟨raw, ls, hls, hlt⟩ := ih (start + c.utf8Size)
      refine ⟨c :: raw, ls, indexLines_cons_of_ne hc hls, fun x hx => ?_⟩
      have := hlt x hx
      omega

/-- The first line of a text that starts with a piece of a line; every other
line starts behind that piece. -/
theorem exists_indexLines_append {m : Text} (hm : '\n' ∉ m) (start : Nat) (r : Text) :
    ∃ rest ls, indexLines start (m ++ r) = ⟨start, m ++ rest⟩ :: ls ∧
      ∀ x ∈ ls, start + m.byteLength < x.start := by
  induction m generalizing start with
  | nil => exact exists_indexLines_cons start r
  | cons c cs ih =>
    rw [List.mem_cons, not_or] at hm
    obtain ⟨rest, ls, hls, hlt⟩ := ih hm.2 (start + c.utf8Size)
    refine ⟨rest, ls, indexLines_cons_of_ne (Ne.symm hm.1) hls, fun x hx => ?_⟩
    have := hlt x hx
    rw [Text.byteLength_cons]
    omega

theorem indexLines_of_not_mem {m : Text} (hm : '\n' ∉ m) (start : Nat) :
    indexLines start m = [⟨start, m⟩] := by
  induction m generalizing start with
  | nil => rfl
  | cons c cs ih =>
    rw [List.mem_cons, not_or] at hm
    exact indexLines_cons_of_ne (Ne.symm hm.1) (ih hm.2 _)

theorem indexLines_terminated_append {m : Text} (hm : '\n' ∉ m) (start : Nat) (rest : Text) :
    indexLines start (m ++ '\n' :: rest) =
      ⟨start, m ++ ['\n']⟩ :: indexLines (start + Text.byteLength (m ++ ['\n'])) rest := by
  induction m generalizing start with
  | nil => exact indexLines_newline_cons start rest
  | cons c cs ih =>
    rw [List.mem_cons, not_or] at hm
    rw [List.cons_append, indexLines_cons_of_ne (Ne.symm hm.1) (ih hm.2 _), List.cons_append,
      Text.byteLength_cons, Nat.add_assoc]

/-- Behind a closed text the index **starts afresh**. -/
theorem indexLines_append {a : Text} (ha : a.IsClosed) (start : Nat) (b : Text) :
    indexLines start (a ++ b) =
      indexed start a.lines ++ indexLines (start + a.byteLength) b := by
  induction a using Text.line_induction generalizing start with
  | nil => rfl
  | last m hm hne =>
    obtain ⟨s, rfl⟩ := Text.isTerminated_iff.mp (ha.resolve_left hne)
    exact absurd (by simp) hm
  | line m rest hm ih =>
    have hrest : rest.IsClosed := (Text.IsClosed.of_append ha).tail.1
    rw [List.append_assoc, List.cons_append, indexLines_terminated_append hm, ih hrest,
      Text.lines_terminated_append hm, indexed, List.cons_append]
    congr 3
    simp only [Text.byteLength_append, Text.byteLength_cons, Text.byteLength_nil]
    omega

-- ---------------------------------------------------------------------------
-- Whole lines
-- ---------------------------------------------------------------------------

theorem length_indexed (start : Nat) (ls : List Text) : (indexed start ls).length = ls.length := by
  induction ls generalizing start with
  | nil => rfl
  | cons l ls ih => rw [indexed, List.length_cons, List.length_cons, ih]

theorem map_raw_indexed (start : Nat) (ls : List Text) :
    (indexed start ls).map IndexedLine.raw = ls := by
  induction ls generalizing start with
  | nil => rfl
  | cons l ls ih => rw [indexed, List.map_cons, ih]

theorem start_le_of_mem_indexed {start : Nat} {ls : List Text} {x : IndexedLine}
    (h : x ∈ indexed start ls) : x.start ≤ start + Text.byteLength ls.flatten := by
  induction ls generalizing start with
  | nil => exact absurd h List.not_mem_nil
  | cons l ls ih =>
    rw [List.flatten_cons, Text.byteLength_append]
    rcases List.mem_cons.mp h with rfl | h
    · exact Nat.le_add_right start _
    · have := ih h
      omega

theorem indexed_append (start : Nat) (ls ls' : List Text) :
    indexed start (ls ++ ls') =
      indexed start ls ++ indexed (start + Text.byteLength ls.flatten) ls' := by
  induction ls generalizing start with
  | nil => rfl
  | cons l ls ih =>
    rw [List.cons_append, indexed, indexed, ih, List.flatten_cons, Text.byteLength_append,
      Nat.add_assoc, List.cons_append]

/-- A numbered line among whole ones has that many of them before it. -/
theorem exists_of_mem_zipIdx_indexed {start base : Nat} {ls : List Text} {x : IndexedLine}
    {number : Nat} (h : (x, number) ∈ (indexed start ls).zipIdx base) :
    ∃ ls₁ ls₂, ls = ls₁ ++ x.raw :: ls₂ ∧ number = ls₁.length + base := by
  induction ls generalizing start base with
  | nil => exact absurd h List.not_mem_nil
  | cons l ls ih =>
    rw [indexed, List.zipIdx_cons] at h
    rcases List.mem_cons.mp h with heq | h
    · obtain ⟨rfl, rfl⟩ := Prod.mk.inj heq
      exact ⟨[], ls, rfl, (Nat.zero_add _).symm⟩
    · obtain ⟨ls₁, ls₂, rfl, hnumber⟩ := ih h
      refine ⟨l :: ls₁, ls₂, rfl, ?_⟩
      rw [List.length_cons]
      omega

namespace LineIndex

-- ---------------------------------------------------------------------------
-- Positions
-- ---------------------------------------------------------------------------

/-- The lines up to an offset in a piece of a line: the complete ones, and the
one that the piece belongs to. -/
theorem exists_linesUpTo_append {a m : Text} (ha : a.IsClosed) (hm : '\n' ∉ m) {offset : Nat}
    (hle : a.byteLength ≤ offset) (hoffset : offset ≤ a.byteLength + m.byteLength) (r : Text) :
    ∃ rest, (ofText (a ++ (m ++ r))).linesUpTo offset =
      indexed 0 a.lines ++ [⟨a.byteLength, m ++ rest⟩] := by
  obtain ⟨rest, ls, hls, hlt⟩ := exists_indexLines_append hm a.byteLength r
  refine ⟨rest, ?_⟩
  -- complete lines start before the offset; behind the line it lies in, all start after it
  rw [linesUpTo, ofText, indexLines_append ha, Nat.zero_add, hls, List.takeWhile_append_of_pos]
  · rw [List.takeWhile_cons_of_pos (by simpa using hle)]
    congr 2
    cases ls with
    | nil => rfl
    | cons x xs =>
      have hx := hlt x List.mem_cons_self
      rw [List.takeWhile_cons_of_neg]
      rw [decide_eq_true_eq]
      omega
  · intro x hx
    have hstart := start_le_of_mem_indexed hx
    rw [Text.flatten_lines, Nat.zero_add] at hstart
    rw [decide_eq_true_eq]
    omega

/-- An offset in a piece of a line lies behind as many line feeds as the piece. -/
theorem lineOf_ofText {a m : Text} (ha : a.IsClosed) (hm : '\n' ∉ m) {offset : Nat}
    (hle : a.byteLength ≤ offset) (hoffset : offset ≤ a.byteLength + m.byteLength) (r : Text) :
    (ofText (a ++ (m ++ r))).lineOf offset = a.count '\n' := by
  obtain ⟨rest, hlines⟩ := exists_linesUpTo_append ha hm hle hoffset r
  rw [lineOf, hlines, List.length_append, length_indexed, Text.length_lines_of_closed ha]
  rfl

/-- An offset lies behind as many line feeds as what is before it. -/
theorem lineOf_append (before after : Text) :
    (ofText (before ++ after)).lineOf before.byteLength = before.count '\n' := by
  obtain ⟨a, m, rfl, ha, hm⟩ := Text.exists_closed_append before
  rw [List.append_assoc a, lineOf_ofText ha hm (by simp) (by simp), List.count_append,
    List.count_eq_zero_of_not_mem hm, Nat.add_zero]

/-- The index finds the position that **reading** finds. -/
theorem positionOf_ofText_append (before after : Text) :
    (ofText (before ++ after)).positionOf before.byteLength = Position.first.advance before := by
  obtain ⟨a, m, rfl, ha, hm⟩ := Text.exists_closed_append before
  obtain ⟨rest, hlines⟩ :=
    exists_linesUpTo_append ha hm (Nat.le_add_right _ _) (Nat.le_refl _) after
  have hmin : min (Text.byteLength (a ++ m)) (ofText (a ++ m ++ after)).byteLength =
      a.byteLength + m.byteLength := by
    simp only [ofText, Text.byteLength_append]
    omega
  have hcolumn : IndexedLine.column ⟨a.byteLength, m ++ rest⟩ m.byteLength = m.length + 1 := by
    rw [IndexedLine.column, Text.takeBytes?_append]
  rw [List.append_assoc] at hmin ⊢
  rw [positionOf, hmin, hlines, List.getLast?_concat]
  show Position.mk _ _ = _
  rw [Nat.add_sub_cancel_left, hcolumn, List.length_append, length_indexed,
    Text.length_lines_of_closed ha, Position.first_advance_append ha hm]
  rfl

-- ---------------------------------------------------------------------------
-- The lines that count
-- ---------------------------------------------------------------------------

/-- Behind a closed text the index has one more line, which may be empty. -/
theorem lines_ofText_append {a m : Text} (ha : a.IsClosed) (hm : '\n' ∉ m) :
    (ofText (a ++ m)).lines = indexed 0 a.lines ++ [⟨a.byteLength, m⟩] := by
  rw [ofText, indexLines_append ha, indexLines_of_not_mem hm, Nat.zero_add]

theorem countedLines_ofText {t : Text} (ht : t ≠ []) :
    (ofText t).countedLines = indexed 0 t.lines := by
  obtain ⟨a, m, rfl, ha, hm⟩ := Text.exists_closed_append t
  have hlines := lines_ofText_append ha hm
  by_cases hne : m = []
  · -- the index of a closed text has one more line, which is empty and does not count
    subst hne
    rw [List.append_nil] at ht hlines ⊢
    have hpos : 0 < a.lines.length :=
      List.length_pos_iff.mpr fun h => ht (Text.lines_eq_nil_iff.mp h)
    have hcount : (ofText a).lineCount = a.lines.length := by
      rw [lineCount, hlines, List.getLast?_concat, List.length_append, length_indexed]
      simp [hpos]
    rw [countedLines, hcount, hlines, ← length_indexed 0 a.lines, List.take_left']
    rfl
  · have hcount : (ofText (a ++ m)).lineCount = (ofText (a ++ m)).lines.length := by
      rw [lineCount, hlines, List.getLast?_concat]
      simp [hne]
    rw [countedLines, hcount, List.take_length, hlines, Text.lines_append ha,
      Text.lines_of_not_mem hm hne, indexed_append, Text.flatten_lines, Nat.zero_add]
    rfl

theorem length_countedLines (index : LineIndex) :
    index.countedLines.length = index.lineCount := by
  have hle : index.lineCount ≤ index.lines.length := by
    unfold lineCount
    split
    · split <;> omega
    · exact Nat.zero_le _
  rw [countedLines, List.length_take, Nat.min_eq_left hle]

/-- An index counts the lines of its text; the empty text has one. -/
theorem lineCount_ofText {t : Text} (ht : t ≠ []) : (ofText t).lineCount = t.lines.length := by
  rw [← length_countedLines, countedLines_ofText ht, length_indexed]

theorem countedLines_ofText_nil : (ofText []).countedLines = [⟨0, []⟩] := rfl

/-- The lines that count make up **the whole text**. -/
theorem flatten_raw_countedLines (t : Text) :
    ((ofText t).countedLines.map IndexedLine.raw).flatten = t := by
  by_cases ht : t = []
  · rw [ht]
    rfl
  · rw [countedLines_ofText ht, map_raw_indexed, Text.flatten_lines]

theorem raw_mem_lines {t : Text} {line : IndexedLine} (ht : t ≠ [])
    (h : line ∈ (ofText t).countedLines) : line.raw ∈ t.lines := by
  rw [countedLines_ofText ht] at h
  rw [← map_raw_indexed 0 t.lines]
  exact List.mem_map_of_mem h

/-- A line that counts is a piece of a line and a line feed, or just a piece. -/
theorem exists_raw_of_mem_countedLines {t : Text} {line : IndexedLine}
    (h : line ∈ (ofText t).countedLines) :
    ∃ m, '\n' ∉ m ∧ (line.raw = m ++ ['\n'] ∨ line.raw = m) := by
  by_cases ht : t = []
  · rw [ht, countedLines_ofText_nil, List.mem_singleton] at h
    exact ⟨[], List.not_mem_nil, Or.inr (by rw [h])⟩
  · obtain ⟨m, hm, hraw⟩ := Text.exists_of_mem_lines (raw_mem_lines ht h)
    exact ⟨m, hm, hraw.imp_right And.left⟩

/-- No line goes on behind its line feed. -/
theorem newline_not_mem_text {t : Text} {line : IndexedLine}
    (h : line ∈ (ofText t).countedLines) : '\n' ∉ line.text := by
  by_cases ht : t = []
  · rw [ht, countedLines_ofText_nil, List.mem_singleton] at h
    rw [h]
    exact List.not_mem_nil
  · exact Text.not_mem_withoutTerminator (raw_mem_lines ht h)

/-- Only the last one can lack its line feed. -/
theorem exists_terminator_of_mem_dropLast_countedLines {t : Text} {line : IndexedLine}
    (h : line ∈ (ofText t).countedLines.dropLast) :
    ∃ front, line.terminator = front ++ ['\n'] ∧ '\n' ∉ front := by
  have ht : t ≠ [] := by
    rintro rfl
    exact absurd h List.not_mem_nil
  rw [countedLines_ofText ht] at h
  have hraw : line.raw ∈ t.lines.dropLast := by
    rw [← map_raw_indexed 0 t.lines, ← List.map_dropLast]
    exact List.mem_map_of_mem h
  obtain ⟨s, hs⟩ := Text.isTerminated_iff.mp (Text.isTerminated_of_mem_dropLast_lines hraw)
  obtain ⟨m, hm, hline | ⟨hline, -⟩⟩ := Text.exists_of_mem_lines (List.dropLast_subset _ hraw)
  · refine ⟨m.terminator, ?_, fun hmem => hm (Text.terminator_subset m hmem)⟩
    rw [IndexedLine.terminator, hline, Text.terminator_append (by simp [Text.isLineBreak])]
  · rw [hs] at hline
    exact absurd (hline ▸ List.mem_append_right s List.mem_cons_self) hm

/-- A line that counts, with its number: it stands behind as many line feeds
as there are lines before it. -/
theorem exists_of_mem_countedLines {t : Text} {line : IndexedLine} {number : Nat}
    (h : (line, number) ∈ (ofText t).countedLines.zipIdx 1) :
    ∃ before after, t = before ++ (line.raw ++ after) ∧ before.IsClosed ∧
      number = before.count '\n' + 1 ∧ '\n' ∉ line.text := by
  by_cases ht : t = []
  · subst ht
    obtain ⟨rfl, rfl⟩ : line = ⟨0, []⟩ ∧ number = 1 := by
      simpa [countedLines_ofText_nil] using h
    exact ⟨[], [], rfl, Text.isClosed_nil, rfl, List.not_mem_nil⟩
  · rw [countedLines_ofText ht] at h
    obtain ⟨ls, ls', hls, hnumber⟩ := exists_of_mem_zipIdx_indexed h
    obtain ⟨hclosed, hlines⟩ := Text.isClosed_of_lines_eq hls
    refine ⟨ls.flatten, ls'.flatten, ?_, hclosed, ?_, ?_⟩
    · rw [← Text.flatten_lines t, hls, List.flatten_append, List.flatten_cons]
    · rw [hnumber, ← Text.length_lines_of_closed hclosed, hlines]
    · apply Text.not_mem_withoutTerminator (t := t)
      rw [hls]
      exact List.mem_append_right _ List.mem_cons_self

end LineIndex

end FenceFacts
