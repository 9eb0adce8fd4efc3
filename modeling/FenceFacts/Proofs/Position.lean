import FenceFacts.Document
import FenceFacts.Proofs.Lines

/-!
# FenceFacts — positions as readings

The position of a boundary is where one arrives by reading the text before
it, character by character, from the first position.  `advance` is that
reading.  Everything known about positions of a document comes from it: line
feeds count lines, the piece behind the last of them counts columns, and a
text that is read further down gives the same positions further down.

Numbers that are added up have a bound.  `Fits` is the size of text for which
no sum of line or column numbers reaches it.

## Results

* `positionOf_append`       — positions of a document are readings.
* `first_advance_append`    — line and column of a reading.
* `advance_lowered`         — reading further down.
* `translate_lowered`       — translators anchored at a line start move down.
* `line_advance_le`, `column_advance_lt` — bounds for positions in a text.
-/

namespace FenceFacts

namespace Position

/-- The position after reading `t` from `p`. -/
def advance (p : Position) (t : Text) : Position := t.foldl after p

/-- The position `n` lines further down. -/
def lowered (n : Nat) (p : Position) : Position := ⟨p.line + n, p.column⟩

def raised (n : Nat) (p : Position) : Position := ⟨p.line - n, p.column⟩

-- ---------------------------------------------------------------------------
-- Reading
-- ---------------------------------------------------------------------------

@[simp] theorem advance_nil (p : Position) : p.advance [] = p := rfl

theorem advance_cons (p : Position) (c : Char) (cs : Text) :
    p.advance (c :: cs) = (p.after c).advance cs := rfl

theorem advance_append (p : Position) (s t : Text) :
    p.advance (s ++ t) = (p.advance s).advance t :=
  List.foldl_append

theorem line_advance (p : Position) (t : Text) :
    (p.advance t).line = p.line + t.count '\n' := by
  induction t generalizing p with
  | nil => rfl
  | cons c cs ih =>
    rw [advance_cons, ih, after]
    by_cases hc : c = '\n'
    · rw [if_pos hc, hc, List.count_cons_self]
      show p.line + 1 + cs.count '\n' = p.line + (cs.count '\n' + 1)
      omega
    · rw [if_neg hc, List.count_cons_of_ne hc]

theorem advance_of_not_mem {m : Text} (hm : '\n' ∉ m) (p : Position) :
    p.advance m = ⟨p.line, p.column + m.length⟩ := by
  induction m generalizing p with
  | nil => rfl
  | cons c cs ih =>
    rw [List.mem_cons, not_or] at hm
    rw [advance_cons, ih hm.2, after, if_neg (Ne.symm hm.1), List.length_cons]
    show (⟨p.line, p.column + 1 + cs.length⟩ : Position) = ⟨p.line, p.column + (cs.length + 1)⟩
    rw [Nat.add_assoc, Nat.add_comm 1]

theorem first_advance_of_closed {a : Text} (ha : a.IsClosed) :
    first.advance a = ⟨a.count '\n' + 1, 1⟩ := by
  rcases ha with rfl | ha
  · rfl
  · obtain ⟨s, rfl⟩ := Text.isTerminated_iff.mp ha
    rw [advance_append, advance_cons, advance_nil, after, if_pos rfl, line_advance,
      List.count_append, List.count_cons_self, List.count_nil]
    show (⟨1 + s.count '\n' + 1, 1⟩ : Position) = ⟨s.count '\n' + (0 + 1) + 1, 1⟩
    rw [Nat.add_comm 1, Nat.zero_add]

/-- Line feeds give the line, the piece behind the last of them the column. -/
theorem first_advance_append {a m : Text} (ha : a.IsClosed) (hm : '\n' ∉ m) :
    first.advance (a ++ m) = ⟨a.count '\n' + 1, m.length + 1⟩ := by
  rw [advance_append, first_advance_of_closed ha, advance_of_not_mem hm, Nat.add_comm 1]

theorem one_le_line_advance (t : Text) : 1 ≤ (first.advance t).line := by
  rw [line_advance]
  exact Nat.le_add_right 1 _

theorem one_le_column_advance (t : Text) : 1 ≤ (first.advance t).column := by
  obtain ⟨a, m, rfl, ha, hm⟩ := Text.exists_closed_append t
  rw [first_advance_append ha hm]
  exact Nat.le_add_left 1 _

-- ---------------------------------------------------------------------------
-- Moving down
-- ---------------------------------------------------------------------------

theorem lowered_add (m n : Nat) (p : Position) : p.lowered (m + n) = (p.lowered m).lowered n := by
  rw [lowered, lowered, lowered, Nat.add_assoc]

@[simp] theorem raised_lowered (n : Nat) (p : Position) : (p.lowered n).raised n = p := by
  simp [lowered, raised]

/-- Reading further down gives the same positions **further down**. -/
theorem advance_lowered (n : Nat) (p : Position) (t : Text) :
    (p.lowered n).advance t = (p.advance t).lowered n := by
  induction t generalizing p with
  | nil => rfl
  | cons c cs ih =>
    have hafter : (p.lowered n).after c = (p.after c).lowered n := by
      unfold after
      split
      · simp only [lowered, Nat.add_right_comm]
      · rfl
    rw [advance_cons, advance_cons, hafter, ih]

/-- Behind a closed text one reads as if at the first position, only further
down. -/
theorem first_advance_closed_append {a : Text} (ha : a.IsClosed) (t : Text) :
    first.advance (a ++ t) = (first.advance t).lowered (a.count '\n') := by
  rw [advance_append, first_advance_of_closed ha, ← advance_lowered]
  congr 1
  rw [lowered, Nat.add_comm]
  rfl

-- ---------------------------------------------------------------------------
-- Translators
-- ---------------------------------------------------------------------------

theorem sum_of_lt {m n : Nat} (h : m + n < bound) : sum m n = .ok (m + n) := by
  rw [sum, if_pos h]

/-- A translator that is anchored at the start of a line moves positions down. -/
theorem translate_lowered {n : Nat} {p : Position} (hline : 1 ≤ p.line) (hcolumn : 1 ≤ p.column)
    (hn : p.line + n < bound) (hc : p.column < bound) :
    (Translator.mk ⟨n + 1, 1⟩).translate p = .ok (p.lowered n) := by
  have hsum : sum (n + 1) (p.line - 1) = .ok (p.line + n) := by
    rw [sum_of_lt (by omega), show n + 1 + (p.line - 1) = p.line + n by omega]
  -- only on the first line are columns added up, and there nothing is added
  by_cases hfirst : p.line ≤ 1
  · have hcol : sum 1 (p.column - 1) = .ok p.column := by
      rw [sum_of_lt (by omega), show 1 + (p.column - 1) = p.column by omega]
    simp only [Translator.translate, hsum, if_pos hfirst, hcol, bind, Except.bind, pure,
      Except.pure, lowered]
  · simp only [Translator.translate, hsum, if_neg hfirst, bind, Except.bind, pure, Except.pure,
      lowered]

end Position

-- ---------------------------------------------------------------------------
-- Offsets of a document
-- ---------------------------------------------------------------------------

theorem Text.walk_cons (c : Char) (cs : Text) (n : Nat) (p : Position) :
    Text.walk (c :: cs) (c.utf8Size + n) p = Text.walk cs n (p.after c) := by
  obtain ⟨k, hk⟩ := Nat.exists_eq_succ_of_ne_zero (Text.utf8Size_ne_zero c)
  rw [show c.utf8Size + n = (k + n) + 1 by omega, Text.walk, if_pos (by omega),
    show k + n + 1 - c.utf8Size = n by omega]

theorem Text.walk_append (before after : Text) (p : Position) :
    Text.walk (before ++ after) before.byteLength p = some (p.advance before) := by
  induction before generalizing p with
  | nil => cases after <;> rfl
  | cons c cs ih =>
    rw [List.cons_append, Text.byteLength_cons, Text.walk_cons, ih, Position.advance_cons]

namespace Document

/-- The position of a boundary is the **reading** of the text before it. -/
theorem positionOf_append {d : Document} {before after : Text} (h : d.text = before ++ after) :
    d.positionOf before.byteLength = .ok (Position.first.advance before) := by
  rw [positionOf, h, Text.walk_append]

theorem lineOf_append {d : Document} {before after : Text} (h : d.text = before ++ after) :
    d.lineOf before.byteLength = .ok (before.count '\n' + 1) := by
  rw [lineOf, positionOf_append h]
  show Except.ok (Position.first.advance before).line = _
  rw [Position.line_advance, Nat.add_comm]
  rfl

end Document

-- ---------------------------------------------------------------------------
-- Bounds
-- ---------------------------------------------------------------------------

namespace Text

/-- No line has so many characters before its line feed that a column number
would reach the bound. -/
def ColumnsFit (t : Text) : Prop :=
  ∀ l ∈ t.lines, (l.takeWhile (· ≠ '\n')).length < Position.bound - 1

/-- The text has few enough lines, and short enough ones, for positions
everywhere in it to be moved two lines down. -/
structure Fits (t : Text) : Prop where
  lines_lt : t.lines.length < Position.bound - 2
  columns_lt : t.ColumnsFit

theorem takeWhile_append_of_not_mem {m : Text} (hm : '\n' ∉ m) (rest : Text) :
    (m ++ rest).takeWhile (· ≠ '\n') = m ++ rest.takeWhile (· ≠ '\n') := by
  rw [List.takeWhile_append_of_pos]
  intro c hc
  rw [decide_eq_true_eq]
  rintro rfl
  exact hm hc

theorem ColumnsFit.column_advance_lt {t before after : Text} (h : t.ColumnsFit)
    (ht : t = before ++ after) : (Position.first.advance before).column < Position.bound := by
  obtain ⟨a, m, rfl, ha, hm⟩ := exists_closed_append before
  rw [Position.first_advance_append ha hm]
  by_cases hne : m ++ after = []
  · rw [(List.append_eq_nil_iff.mp hne).1]
    show 1 < Position.bound
    decide
  · -- the column counts a piece of a line, and that line is one of the text
    obtain ⟨rest, ls, hls⟩ := exists_lines_cons hm after hne
    have hmem : m ++ rest ∈ t.lines := by
      rw [ht, List.append_assoc, lines_append ha, hls]
      exact List.mem_append_right _ List.mem_cons_self
    have hlt := h _ hmem
    rw [takeWhile_append_of_not_mem hm, List.length_append] at hlt
    show m.length + 1 < Position.bound
    omega

/-- A position before the end of a text lies on one of its lines. -/
theorem line_advance_le {t before after : Text} (ht : t = before ++ after) (hne : after ≠ []) :
    (Position.first.advance before).line ≤ t.lines.length := by
  obtain ⟨a, m, rfl, ha, hm⟩ := exists_closed_append before
  have hrest : m ++ after ≠ [] := List.append_ne_nil_of_right_ne_nil m hne
  have hpos : 0 < (m ++ after).lines.length :=
    List.length_pos_iff.mpr fun h => hrest (lines_eq_nil_iff.mp h)
  rw [Position.first_advance_append ha hm, ht, List.append_assoc, lines_append ha,
    List.length_append, length_lines_of_closed ha]
  show a.count '\n' + 1 ≤ _
  omega

/-- Every position of the text stays in range when it is moved `n` lines down. -/
def FitsBelow (t : Text) (n : Nat) : Prop :=
  ∀ before after, t = before ++ after →
    (Position.first.advance before).line + n < Position.bound ∧
      (Position.first.advance before).column < Position.bound

theorem FitsBelow.translate {t : Text} {n : Nat} (h : t.FitsBelow n) {before after : Text}
    (ht : t = before ++ after) :
    (Translator.mk ⟨n + 1, 1⟩).translate (Position.first.advance before) =
      .ok ((Position.first.advance before).lowered n) :=
  Position.translate_lowered (Position.one_le_line_advance before)
    (Position.one_le_column_advance before) (h before after ht).1 (h before after ht).2

theorem FitsBelow.mono {t : Text} {m n : Nat} (h : t.FitsBelow n) (hmn : m ≤ n) :
    t.FitsBelow m := by
  intro before after ht
  obtain ⟨hline, hcolumn⟩ := h before after ht
  exact ⟨by omega, hcolumn⟩

/-- The positions of a script file stay in range where they are. -/
theorem Fits.fitsBelow_zero {t : Text} (h : t.Fits) : t.FitsBelow 0 := by
  intro before after ht
  have hcount : before.count '\n' ≤ t.count '\n' := by
    rw [ht, List.count_append]
    exact Nat.le_add_right _ _
  have hlines := Nat.lt_of_le_of_lt (count_le_length_lines t) h.lines_lt
  refine ⟨?_, h.columns_lt.column_advance_lt ht⟩
  rw [Position.line_advance]
  show 1 + before.count '\n' + 0 < Position.bound
  omega

end Text

end FenceFacts
