import FenceFacts.Proofs.Offset

/-!
# FenceFacts — lines and closed texts

A text is *closed* when it ends where a line ends: it is empty or its last
character is a line feed.  What stands behind a closed text starts a line of
its own, so a closed text can be cut off without touching any line behind it.
Every text is a closed one followed by a piece of a line.

## Results

* `lines_append`          — behind a closed text the lines start afresh.
* `exists_closed_append`  — closed text and piece of a line.
* `isClosed_of_lines_eq`  — the lines before a line make up a closed text.
* `length_lines_of_closed`, `count_le_length_lines` — lines and line feeds.
-/

namespace FenceFacts

namespace Text

/-- The text ends where a line ends. -/
def IsClosed (t : Text) : Prop := t = [] ∨ t.isTerminated = true

-- ---------------------------------------------------------------------------
-- Line ends
-- ---------------------------------------------------------------------------

theorem isLineBreak_iff {c : Char} : isLineBreak c = true ↔ c = '\r' ∨ c = '\n' := by
  simp [isLineBreak]

theorem ne_newline_of_isLineBreak {c : Char} (h : ¬ isLineBreak c = true) : c ≠ '\n' := by
  rintro rfl
  exact h rfl

/-- A run of characters of a class that line feeds do not belong to. -/
theorem newline_not_mem_takeWhile {p : Char → Bool} (hlf : p '\n' = false) (t : Text) :
    '\n' ∉ t.takeWhile p := by
  intro h
  have hp := List.all_eq_true.mp List.all_takeWhile '\n' h
  rw [hlf] at hp
  cases hp

/-- Only line ends are cut off. -/
theorem isLineBreak_of_mem_terminator {t : Text} {c : Char} (h : c ∈ t.terminator) :
    isLineBreak c = true := by
  rw [terminator, List.mem_reverse] at h
  exact List.all_eq_true.mp List.all_takeWhile c h

theorem terminator_subset (t : Text) : t.terminator ⊆ t := by
  intro c hc
  rw [← withoutTerminator_append_terminator t]
  exact List.mem_append_right _ hc

theorem withoutTerminator_cons {c : Char} (hc : ¬ isLineBreak c = true) (t : Text) :
    withoutTerminator (c :: t) = c :: t.withoutTerminator := by
  rw [withoutTerminator, List.reverse_cons, List.dropWhile_append]
  split
  · next hnil =>
    rw [List.dropWhile_cons_of_neg hc, withoutTerminator, List.isEmpty_iff.mp hnil]
    rfl
  · rw [List.reverse_append, withoutTerminator]
    rfl

/-- What is left does not end with a part of a line end. -/
theorem getLast?_withoutTerminator {c : Char} (hc : isLineBreak c = true) (t : Text) :
    t.withoutTerminator.getLast? ≠ some c := by
  rw [withoutTerminator, List.getLast?_reverse]
  intro h
  have hnot := List.head?_dropWhile_not isLineBreak t.reverse
  rw [h] at hnot
  exact Bool.eq_false_iff.mp hnot hc

theorem not_isLineBreak_of_withoutTerminator {t s : Text} {c : Char}
    (h : t.withoutTerminator = s ++ [c]) : ¬ isLineBreak c = true := by
  intro hc
  refine getLast?_withoutTerminator hc t ?_
  rw [h, List.getLast?_concat]

/-- Line ends at the end of a text belong to its terminator. -/
theorem terminator_append {t : Text} (ht : ∀ c ∈ t, isLineBreak c = true) (s : Text) :
    terminator (s ++ t) = s.terminator ++ t := by
  have htake : (t.reverse ++ s.reverse).takeWhile isLineBreak =
      t.reverse ++ s.reverse.takeWhile isLineBreak :=
    List.takeWhile_append_of_pos fun c hc => ht c (List.mem_reverse.mp hc)
  rw [terminator, List.reverse_append, htake, List.reverse_append, List.reverse_reverse,
    terminator]

-- ---------------------------------------------------------------------------
-- Closed texts
-- ---------------------------------------------------------------------------

theorem isTerminated_iff {t : Text} : t.isTerminated = true ↔ ∃ s, t = s ++ ['\n'] := by
  rw [isTerminated, beq_iff_eq, List.getLast?_eq_some_iff]

theorem isClosed_nil : IsClosed [] := Or.inl rfl

theorem isClosed_concat (s : Text) : IsClosed (s ++ ['\n']) :=
  Or.inr (isTerminated_iff.mpr ⟨s, rfl⟩)

theorem IsClosed.append {a b : Text} (ha : a.IsClosed) (hb : b.IsClosed) :
    IsClosed (a ++ b) := by
  rcases hb with rfl | hb
  · rwa [List.append_nil]
  · obtain ⟨s, rfl⟩ := isTerminated_iff.mp hb
    rw [← List.append_assoc]
    exact isClosed_concat (a ++ s)

theorem IsClosed.of_append {a b : Text} (h : IsClosed (a ++ b)) : b.IsClosed := by
  by_cases hb : b = []
  · exact Or.inl hb
  · right
    have hab : isTerminated (a ++ b) = true := h.resolve_left fun hnil => hb (by simp_all)
    rw [isTerminated, List.getLast?_append_of_ne_nil _ hb] at hab
    exact hab

/-- What is left of a closed text when its first character is taken off. -/
theorem IsClosed.tail {c : Char} {cs : Text} (h : IsClosed (c :: cs)) :
    IsClosed cs ∧ (cs = [] → c = '\n') := by
  obtain ⟨s, hs⟩ := isTerminated_iff.mp (h.resolve_left (List.cons_ne_nil c cs))
  cases s with
  | nil =>
    obtain ⟨rfl, rfl⟩ := List.cons.inj hs
    exact ⟨isClosed_nil, fun _ => rfl⟩
  | cons x s =>
    obtain ⟨rfl, rfl⟩ := List.cons.inj hs
    exact ⟨isClosed_concat s, fun hnil => by simp at hnil⟩

/-- Every text is a closed one and a piece of a line. -/
theorem exists_closed_append (t : Text) :
    ∃ a m, t = a ++ m ∧ IsClosed a ∧ '\n' ∉ m := by
  induction t with
  | nil => exact ⟨[], [], rfl, isClosed_nil, List.not_mem_nil⟩
  | cons c cs ih =>
    obtain ⟨a, m, rfl, ha, hm⟩ := ih
    by_cases hc : c = '\n'
    · subst hc
      exact ⟨'\n' :: a, m, rfl, IsClosed.append (isClosed_concat []) ha, hm⟩
    · -- the character goes with the closed part, or with the piece if that is all there is
      rcases ha with rfl | ha
      · refine ⟨[], c :: m, rfl, isClosed_nil, ?_⟩
        rw [List.mem_cons, not_or]
        exact ⟨fun h => hc h.symm, hm⟩
      · obtain ⟨s, rfl⟩ := isTerminated_iff.mp ha
        exact ⟨c :: (s ++ ['\n']), m, rfl, isClosed_concat (c :: s), hm⟩

-- ---------------------------------------------------------------------------
-- Splitting into lines
-- ---------------------------------------------------------------------------

theorem lines_newline_cons (cs : Text) : lines ('\n' :: cs) = ['\n'] :: lines cs := by
  rw [lines, if_pos rfl]

theorem lines_cons_of_ne {c : Char} {cs : Text} (hc : c ≠ '\n') {l : Text} {ls : List Text}
    (h : lines cs = l :: ls) : lines (c :: cs) = (c :: l) :: ls := by
  rw [lines, if_neg hc, h]

theorem lines_singleton_of_ne {c : Char} (hc : c ≠ '\n') : lines [c] = [[c]] := by
  rw [lines, if_neg hc, lines]

theorem lines_eq_nil_iff {t : Text} : lines t = [] ↔ t = [] := by
  constructor
  · intro h
    have := flatten_lines t
    rw [h] at this
    exact this.symm
  · rintro rfl
    rfl

/-- Behind a closed text the lines **start afresh**. -/
theorem lines_append {a : Text} (h : a.IsClosed) (b : Text) :
    lines (a ++ b) = lines a ++ lines b := by
  induction a with
  | nil => rfl
  | cons c cs ih =>
    obtain ⟨hcs, hlast⟩ := h.tail
    rw [List.cons_append]
    by_cases hc : c = '\n'
    · subst hc
      rw [lines_newline_cons, lines_newline_cons, ih hcs, List.cons_append]
    · -- a closed text does not end here, so the line goes on
      obtain ⟨l, ls, hl⟩ : ∃ l ls, lines cs = l :: ls :=
        List.exists_cons_of_ne_nil fun hnil => hc (hlast (lines_eq_nil_iff.mp hnil))
      have happ : lines (cs ++ b) = l :: (ls ++ lines b) := by
        rw [ih hcs, hl, List.cons_append]
      rw [lines_cons_of_ne hc happ, lines_cons_of_ne hc hl, List.cons_append]

theorem lines_terminated_append {m : Text} (hm : '\n' ∉ m) (rest : Text) :
    lines (m ++ '\n' :: rest) = (m ++ ['\n']) :: lines rest := by
  induction m with
  | nil => exact lines_newline_cons rest
  | cons c cs ih =>
    rw [List.mem_cons, not_or] at hm
    exact lines_cons_of_ne (Ne.symm hm.1) (ih hm.2)

theorem lines_of_not_mem {m : Text} (hm : '\n' ∉ m) (hne : m ≠ []) : lines m = [m] := by
  induction m with
  | nil => exact absurd rfl hne
  | cons c cs ih =>
    rw [List.mem_cons, not_or] at hm
    by_cases hcs : cs = []
    · subst hcs
      exact lines_singleton_of_ne (Ne.symm hm.1)
    · exact lines_cons_of_ne (Ne.symm hm.1) (ih hm.2 hcs)

/-- The first line of a text that starts with a piece of a line, and what
follows that line. -/
theorem exists_lines_cons {m : Text} (hm : '\n' ∉ m) (r : Text) (hne : m ++ r ≠ []) :
    ∃ rest ls, lines (m ++ r) = (m ++ rest) :: ls := by
  obtain ⟨l, ls, hl⟩ : ∃ l ls, lines (m ++ r) = l :: ls :=
    List.exists_cons_of_ne_nil fun hnil => hne (lines_eq_nil_iff.mp hnil)
  induction m generalizing l with
  | nil => exact ⟨l, ls, hl⟩
  | cons c cs ih =>
    rw [List.mem_cons, not_or] at hm
    by_cases hcs : cs ++ r = []
    · obtain ⟨rfl, rfl⟩ := List.append_eq_nil_iff.mp hcs
      exact ⟨[], [], lines_singleton_of_ne (Ne.symm hm.1)⟩
    · obtain ⟨l', ls', hl'⟩ : ∃ l' ls', lines (cs ++ r) = l' :: ls' :=
        List.exists_cons_of_ne_nil fun hnil => hcs (lines_eq_nil_iff.mp hnil)
      have hcons := lines_cons_of_ne (Ne.symm hm.1) hl'
      have hls : ls = ls' := by
        rw [List.cons_append] at hl
        exact (List.cons.inj (hl.symm.trans hcons)).2
      subst hls
      obtain ⟨rest, ls, h⟩ := ih hm.2 hcs l' hl'
      exact ⟨rest, ls, lines_cons_of_ne (Ne.symm hm.1) h⟩

-- ---------------------------------------------------------------------------
-- Induction over lines
-- ---------------------------------------------------------------------------

/-- Line by line: a text is empty, a last line without line feed, or a line
and the text behind it. -/
@[elab_as_elim]
theorem line_induction {motive : Text → Prop} (nil : motive [])
    (last : ∀ m, '\n' ∉ m → m ≠ [] → motive m)
    (line : ∀ m rest, '\n' ∉ m → motive rest → motive (m ++ '\n' :: rest)) (t : Text) :
    motive t := by
  by_cases hmem : '\n' ∈ t
  · -- cut behind the first line feed: what is left is shorter
    obtain ⟨m, rest, ht, hm⟩ := List.eq_append_cons_of_mem hmem
    rw [ht]
    exact line m rest hm (line_induction nil last line rest)
  · by_cases hne : t = []
    · rw [hne]
      exact nil
    · exact last t hmem hne
termination_by t.length
decreasing_by
  rw [ht, List.length_append, List.length_cons]
  omega

/-- The shape of a line: characters other than a line feed, and then one or
the end of the text. -/
theorem exists_of_mem_lines {t l : Text} (h : l ∈ lines t) :
    ∃ m, '\n' ∉ m ∧ (l = m ++ ['\n'] ∨ l = m ∧ m ≠ []) := by
  induction t using line_induction with
  | nil => exact absurd h List.not_mem_nil
  | last m hm hne =>
    rw [lines_of_not_mem hm hne, List.mem_singleton] at h
    exact ⟨m, hm, Or.inr ⟨h, hne⟩⟩
  | line m rest hm ih =>
    rw [lines_terminated_append hm] at h
    rcases List.mem_cons.mp h with rfl | h
    · exact ⟨m, hm, Or.inl rfl⟩
    · exact ih h

/-- The lines before a line make up a closed text, and are the lines of it. -/
theorem isClosed_of_lines_eq {t l : Text} {ls ls' : List Text} (h : lines t = ls ++ l :: ls') :
    IsClosed ls.flatten ∧ lines ls.flatten = ls := by
  induction t using line_induction generalizing ls with
  | nil => simp [lines] at h
  | last m hm hne =>
    rw [lines_of_not_mem hm hne] at h
    cases ls with
    | nil => exact ⟨isClosed_nil, rfl⟩
    | cons x xs => simp at h
  | line m rest hm ih =>
    rw [lines_terminated_append hm] at h
    cases ls with
    | nil => exact ⟨isClosed_nil, rfl⟩
    | cons x xs =>
      rw [List.cons_append] at h
      obtain ⟨rfl, hrest⟩ := List.cons.inj h
      obtain ⟨hclosed, hlines⟩ := ih hrest
      refine ⟨(isClosed_concat m).append hclosed, ?_⟩
      rw [List.flatten_cons, List.append_assoc, List.singleton_append,
        lines_terminated_append hm, hlines]

/-- Only the last line can lack its line feed. -/
theorem isTerminated_of_mem_dropLast_lines {t l : Text} (h : l ∈ (lines t).dropLast) :
    l.isTerminated = true := by
  induction t using line_induction with
  | nil => exact absurd h List.not_mem_nil
  | last m hm hne =>
    rw [lines_of_not_mem hm hne] at h
    exact absurd h List.not_mem_nil
  | line m rest hm ih =>
    rw [lines_terminated_append hm] at h
    by_cases hrest : lines rest = []
    · rw [hrest] at h
      exact absurd h List.not_mem_nil
    · rw [List.dropLast_cons_of_ne_nil hrest] at h
      rcases List.mem_cons.mp h with rfl | h
      · exact isTerminated_iff.mpr ⟨m, rfl⟩
      · exact ih h

/-- The terminator of a line holds its line feed. -/
theorem not_mem_withoutTerminator {t l : Text} (h : l ∈ lines t) :
    '\n' ∉ l.withoutTerminator := by
  obtain ⟨m, hm, hl⟩ := exists_of_mem_lines h
  have heq : l.withoutTerminator = m.withoutTerminator := by
    rcases hl with rfl | ⟨rfl, -⟩
    · simp [withoutTerminator, isLineBreak]
    · rfl
  rw [heq]
  intro hmem
  apply hm
  rw [← withoutTerminator_append_terminator m]
  exact List.mem_append_left _ hmem

-- ---------------------------------------------------------------------------
-- Counting
-- ---------------------------------------------------------------------------

theorem length_lines_of_closed {t : Text} (h : t.IsClosed) :
    (lines t).length = t.count '\n' := by
  induction t using line_induction with
  | nil => rfl
  | last m hm hne =>
    obtain ⟨s, rfl⟩ := isTerminated_iff.mp (h.resolve_left hne)
    exact absurd (by simp) hm
  | line m rest hm ih =>
    have hrest : IsClosed rest := (IsClosed.of_append h).tail.1
    rw [lines_terminated_append hm, List.length_cons, ih hrest, List.count_append,
      List.count_cons_self, List.count_eq_zero_of_not_mem hm, Nat.zero_add]

theorem count_le_length_lines (t : Text) : t.count '\n' ≤ (lines t).length := by
  induction t using line_induction with
  | nil => exact Nat.le_refl 0
  | last m hm hne =>
    rw [List.count_eq_zero_of_not_mem hm]
    exact Nat.zero_le _
  | line m rest hm ih =>
    rw [lines_terminated_append hm, List.length_cons, List.count_append,
      List.count_cons_self, List.count_eq_zero_of_not_mem hm]
    omega

end Text

end FenceFacts
