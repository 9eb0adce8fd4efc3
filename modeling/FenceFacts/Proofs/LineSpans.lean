import FenceFacts.Proofs.Lookups

/-!
# FenceFacts — the bytes of the lines

A line takes the bytes from its start up to where the next one starts, so the
lines of an index lie end to end over its text, as the tokens of a script do.
Looking the line of an offset up and comparing the offset with the ends of a
line are then the same, and the lines that a token reaches onto, from the one
of its first byte to the one of its last, are those it has a byte in common
with.

## Results

* `tiles_lines` — the lines lie end to end.
* `le_lineOf_iff`, `lineOf_le_iff` — the line of an offset, by the ends of lines.
* `lineRange_iff_meets` — the lines of a token, by bytes in common.
* `touchedLines_eq_countP` — how many lines some tokens reach onto.
-/

namespace FenceFacts

-- ---------------------------------------------------------------------------
-- Bytes of spans
-- ---------------------------------------------------------------------------

namespace Span

/-- A span holds the offsets of its bytes. -/
instance : Membership Nat Span := ⟨fun s n => s.start ≤ n ∧ n < s.stop⟩

theorem mem_iff {n : Nat} {s : Span} : n ∈ s ↔ s.start ≤ n ∧ n < s.stop := Iff.rfl

/-- The spans have a byte in common. -/
def Meets (s t : Span) : Prop := ∃ n, n ∈ s ∧ n ∈ t

/-- All of `s` lies in `t`. -/
def Within (s t : Span) : Prop := t.start ≤ s.start ∧ s.stop ≤ t.stop

theorem meets_iff {s t : Span} : s.Meets t ↔ max s.start t.start < min s.stop t.stop := by
  constructor
  · rintro ⟨n, ⟨hs, hs'⟩, ht, ht'⟩
    omega
  · intro h
    exact ⟨max s.start t.start, ⟨by omega, by omega⟩, by omega, by omega⟩

instance (s t : Span) : Decidable (s.Meets t) := decidable_of_iff _ meets_iff.symm

instance (s t : Span) : Decidable (s.Within t) :=
  inferInstanceAs (Decidable (t.start ≤ s.start ∧ s.stop ≤ t.stop))

/-- A span with bytes meets the spans it lies in. -/
theorem Within.meets {s t : Span} (h : s.Within t) (hs : s.start < s.stop) : s.Meets t := by
  obtain ⟨hstart, hstop⟩ := h
  exact ⟨s.start, ⟨Nat.le_refl _, hs⟩, hstart, by omega⟩

end Span

namespace Tiles

variable {stop start n k : Nat} {spans : List Span} {s : Span}

/-- Where one span stops the next one starts, and all of them stop where the
last one does. -/
theorem getD_start_succ (h : Tiles stop start spans) (hs : spans[k]? = some s) :
    (spans[k + 1]?.map Span.start).getD stop = s.stop := by
  induction spans generalizing start k with
  | nil => cases hs
  | cons first spans ih =>
    cases k with
    | zero =>
      obtain rfl := Option.some.inj hs
      cases spans with
      | nil => exact h.2.symm
      | cons next spans => exact h.2.1
    | succ k => exact ih h.2 hs

/-- Every byte lies in one of the spans. -/
theorem exists_mem (h : Tiles stop start spans) (hstart : start ≤ n) (hstop : n < stop) :
    ∃ s ∈ spans, n ∈ s := by
  induction spans generalizing start with
  | nil =>
    obtain rfl : start = stop := h
    omega
  | cons first spans ih =>
    obtain ⟨hfirst, hlater⟩ := h
    by_cases hn : n < first.stop
    · exact ⟨first, List.mem_cons_self, by omega, hn⟩
    · obtain ⟨s, hs, hmem⟩ := ih hlater (by omega)
      exact ⟨s, List.mem_cons_of_mem first hs, hmem⟩

end Tiles

-- ---------------------------------------------------------------------------
-- Fronts
-- ---------------------------------------------------------------------------

/-- Where a property of later elements is one of earlier ones, the elements
that it is taken from the front for are those that have it. -/
theorem lt_length_takeWhile_iff {α : Type} {p : α → Bool} {l : List α} {x : α} {k : Nat}
    (h : l.Pairwise fun a b => p b = true → p a = true) (hx : l[k]? = some x) :
    k < (l.takeWhile p).length ↔ p x = true := by
  induction l generalizing k with
  | nil => cases hx
  | cons a l ih =>
    obtain ⟨ha, hl⟩ := List.pairwise_cons.mp h
    cases k with
    | zero =>
      obtain rfl := Option.some.inj hx
      by_cases hp : p a = true
      · simp [List.takeWhile_cons_of_pos, hp]
      · simp [List.takeWhile_cons_of_neg, hp]
    | succ k =>
      have hx : l[k]? = some x := hx
      by_cases hp : p a = true
      · rw [List.takeWhile_cons_of_pos hp, List.length_cons, Nat.succ_lt_succ_iff, ih hl hx]
      · rw [List.takeWhile_cons_of_neg hp]
        exact iff_of_false (Nat.not_lt_zero _) (mt (ha x (List.mem_of_getElem? hx)) hp)

-- ---------------------------------------------------------------------------
-- Lines end to end
-- ---------------------------------------------------------------------------

/-- The bytes of a line, its terminator included. -/
def IndexedLine.span (l : IndexedLine) : Span := ⟨l.start, l.start + l.raw.byteLength⟩

theorem tiles_indexed (start : Nat) (ls : List Text) :
    Tiles (start + Text.byteLength ls.flatten) start ((indexed start ls).map IndexedLine.span) := by
  induction ls generalizing start with
  | nil => rfl
  | cons l ls ih =>
    rw [indexed, List.map_cons, List.flatten_cons, Text.byteLength_append, ← Nat.add_assoc]
    exact ⟨rfl, ih (start + l.byteLength)⟩

namespace LineIndex

variable {script : Text} {line : IndexedLine} {n k : Nat}

/-- The lines of an index **lie end to end** over its text. -/
theorem tiles_lines (script : Text) :
    Tiles script.byteLength 0 ((ofText script).lines.map IndexedLine.span) := by
  obtain ⟨ls, rfl, hls⟩ := exists_indexed_eq_lines script
  rw [hls]
  simpa using tiles_indexed 0 ls

theorem pairwise_lines (script : Text) :
    (ofText script).lines.Pairwise fun l l' => l.span.stop ≤ l'.start := by
  refine List.pairwise_map.mp ((tiles_lines script).pairwise fun s hs => ?_)
  obtain ⟨l, -, rfl⟩ := List.mem_map.mp hs
  exact Nat.le_add_right _ _

theorem stopOf_eq (h : (ofText script).lines[k]? = some line) :
    (ofText script).stopOf k = line.span.stop := by
  have hspan : ((ofText script).lines.map IndexedLine.span)[k]? = some line.span := by
    rw [List.getElem?_map, h]
    rfl
  rw [← (tiles_lines script).getD_start_succ hspan, List.getElem?_map, stopOf]
  cases (ofText script).lines[k + 1]? with
  | none => rfl
  | some next => rfl

-- ---------------------------------------------------------------------------
-- The line of an offset
-- ---------------------------------------------------------------------------

/-- An offset lies on a line or behind it **if the line starts before it**. -/
theorem le_lineOf_iff (h : (ofText script).lines[k]? = some line) :
    k ≤ (ofText script).lineOf n ↔ line.start ≤ n := by
  obtain ⟨hpos, -⟩ := exists_line_of_offset script n
  have horder : (ofText script).lines.Pairwise fun l l' =>
      decide (l'.start ≤ n) = true → decide (l.start ≤ n) = true := by
    refine (pairwise_lines script).imp fun {l l'} hle hstart => ?_
    have hforwards : l.start ≤ l.span.stop := Nat.le_add_right _ _
    rw [decide_eq_true_eq] at hstart ⊢
    omega
  have hfront : k < ((ofText script).linesUpTo n).length ↔ line.start ≤ n := by
    rw [linesUpTo, lt_length_takeWhile_iff horder h, decide_eq_true_eq]
  rw [← hfront, lineOf]
  omega

/-- An offset lies on a line or before it **if the line stops behind it**. -/
theorem lineOf_le_iff (h : (ofText script).lines[k]? = some line) (hn : n < script.byteLength) :
    (ofText script).lineOf n ≤ k ↔ n < line.span.stop := by
  rw [← stopOf_eq h, stopOf]
  cases hnext : (ofText script).lines[k + 1]? with
  | none =>
    obtain ⟨-, l, hl, -⟩ := exists_line_of_offset script n
    have hlast := List.getElem?_eq_none_iff.mp hnext
    have hlt := (List.getElem?_eq_some_iff.mp hl).1
    exact iff_of_true (by omega) hn
  | some next =>
    have hlater := le_lineOf_iff (n := n) hnext
    show _ ↔ n < next.start
    omega

-- ---------------------------------------------------------------------------
-- The lines that count
-- ---------------------------------------------------------------------------

theorem getElem?_countedLines (h : (ofText script).countedLines[k]? = some line) :
    (ofText script).lines[k]? = some line := by
  rw [countedLines, List.getElem?_take] at h
  split at h
  · exact h
  · cases h

/-- A line that counts is one of the lines of its text, where it starts. -/
theorem exists_lines_of_mem_countedLines (ht : script ≠ [])
    (h : line ∈ (ofText script).countedLines) :
    ∃ ls ls', script.lines = ls ++ line.raw :: ls' ∧ line.start = Text.byteLength ls.flatten := by
  rw [countedLines_ofText ht] at h
  obtain ⟨k, hk⟩ := List.mem_iff_getElem?.mp h
  obtain ⟨ls, ls', hls, -, hstart⟩ := exists_of_getElem?_indexed hk
  rw [Nat.zero_add] at hstart
  exact ⟨ls, ls', hls, hstart⟩

/-- It stands behind whole lines. -/
theorem exists_append_of_mem_countedLines (ht : script ≠ [])
    (h : line ∈ (ofText script).countedLines) :
    ∃ before after, script = before ++ (line.raw ++ after) ∧ before.IsClosed ∧
      line.start = before.byteLength ∧ '\n' ∉ line.text := by
  obtain ⟨ls, ls', hls, hstart⟩ := exists_lines_of_mem_countedLines ht h
  refine ⟨ls.flatten, ls'.flatten, ?_, (Text.isClosed_of_lines_eq hls).1, hstart,
    newline_not_mem_text h⟩
  rw [← Text.flatten_lines script, hls, List.flatten_append, List.flatten_cons]

/-- In a text that is not empty a line that counts **has bytes**. -/
theorem start_lt_stop_of_mem_countedLines (ht : script ≠ [])
    (h : line ∈ (ofText script).countedLines) : line.start < line.span.stop := by
  have hraw : line.raw ≠ [] := by
    obtain ⟨m, -, hm | ⟨hm, hne⟩⟩ := Text.exists_of_mem_lines (raw_mem_lines ht h)
    · rw [hm]
      exact List.append_ne_nil_of_right_ne_nil m (List.cons_ne_nil _ _)
    · rwa [hm]
  have hpos := mt Text.byteLength_eq_zero_iff.mp hraw
  show line.start < line.start + line.raw.byteLength
  omega

/-- Counting by numbers of lines is **counting lines**. -/
theorem countP_range_lineCount {p : Nat → Bool} {q : IndexedLine → Bool} (index : LineIndex)
    (h : ∀ k line, index.countedLines[k]? = some line → (p k = true ↔ q line = true)) :
    (List.range index.lineCount).countP p = index.countedLines.countP q := by
  have hnumbers : List.range index.lineCount = index.countedLines.zipIdx.map Prod.snd := by
    rw [List.zipIdx_map_snd, ← List.range_eq_range', length_countedLines]
  have hlines : index.countedLines = index.countedLines.zipIdx.map Prod.fst :=
    (List.zipIdx_map_fst 0 _).symm
  rw [hnumbers, hlines, List.countP_map, List.countP_map, ← hlines]
  exact List.countP_congr fun x hx => h x.2 x.1 (List.mem_zipIdx_iff_getElem?.mp hx)

end LineIndex

-- ---------------------------------------------------------------------------
-- The lines of tokens
-- ---------------------------------------------------------------------------

variable {script : Text} {line : IndexedLine} {t : Token} {k : Nat}

theorem Token.LiesIn.stop_le (h : t.LiesIn script) : t.span.stop ≤ script.byteLength := by
  obtain ⟨-, before, after, rfl, hspan⟩ := h
  rw [hspan, Text.byteLength_append, Text.byteLength_append]
  dsimp only
  omega

/-- The lines that a token reaches onto are those it has **a byte in common**
with. -/
theorem Token.LiesIn.lineRange_iff_meets (h : t.LiesIn script)
    (hline : (LineIndex.ofText script).countedLines[k]? = some line) :
    (t.lineRange (.ofText script)).1 ≤ k ∧ k ≤ (t.lineRange (.ofText script)).2 ↔
      line.span.Meets t.span := by
  have hpos := h.start_lt_stop
  have hstop := h.stop_le
  have hscript : script ≠ [] := by
    rintro rfl
    exact Nat.not_lt_zero _ (Nat.lt_of_lt_of_le hpos hstop)
  have hbytes :=
    LineIndex.start_lt_stop_of_mem_countedLines hscript (List.mem_of_getElem? hline)
  have hk := LineIndex.getElem?_countedLines hline
  have hfirst := LineIndex.lineOf_le_iff (n := t.span.start) hk (by omega)
  have hlast := LineIndex.le_lineOf_iff (n := max (t.span.stop - 1) t.span.start) hk
  rw [Token.lineRange, hfirst, hlast, Span.meets_iff]
  show _ ↔ max line.start t.span.start < min line.span.stop t.span.stop
  omega

/-- The line has a byte in common with one of the tokens. -/
def IndexedLine.Holds (tokens : List Token) (line : IndexedLine) : Prop :=
  ∃ t ∈ tokens, line.span.Meets t.span

instance (tokens : List Token) : DecidablePred (IndexedLine.Holds tokens) := fun line =>
  inferInstanceAs (Decidable (∃ t ∈ tokens, line.span.Meets t.span))

/-- Some tokens reach onto as many lines as have **a byte in common** with one
of them. -/
theorem touchedLines_eq_countP {tokens : List Token} (h : ∀ t ∈ tokens, t.LiesIn script) :
    touchedLines (.ofText script) tokens =
      (LineIndex.ofText script).countedLines.countP (·.Holds tokens) := by
  refine LineIndex.countP_range_lineCount _ fun k line hline => ?_
  rw [List.any_map, List.any_eq_true, decide_eq_true_eq]
  refine exists_congr fun t => and_congr_right fun ht => ?_
  rw [← (h t ht).lineRange_iff_meets hline]
  simp

end FenceFacts
