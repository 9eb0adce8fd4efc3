import FenceFacts.Proofs.Position
import Mathlib.Data.List.Induction

/-!
# FenceFacts — two kinds of line ends

A text with line feeds can be written with a carriage return before each of
them.  Its characters, lines and positions stay what they are: what changes
are the terminators of its lines, and offsets, which count the carriage
returns before them.

## Results

* `crlf_append`            — pieces of a text are written one by one.
* `lines_crlf`             — line by line.
* `advance_crlf`           — positions stay.
* `withoutTerminator_crlf` — what is cut off at the end is a line end as before.
* `crlfOffset_append`      — offsets as lengths of what is before them.
-/

namespace FenceFacts

namespace Text

/-- The text with a carriage return before every line feed. -/
def crlf (t : Text) : Text := t.flatMap fun c => if c = '\n' then ['\r', '\n'] else [c]

-- ---------------------------------------------------------------------------
-- Characters
-- ---------------------------------------------------------------------------

@[simp] theorem crlf_nil : crlf [] = [] := rfl

theorem crlf_append (s t : Text) : crlf (s ++ t) = crlf s ++ crlf t := List.flatMap_append

theorem crlf_newline_cons (t : Text) : crlf ('\n' :: t) = '\r' :: '\n' :: crlf t := rfl

theorem crlf_cons_of_ne {c : Char} (hc : c ≠ '\n') (t : Text) : crlf (c :: t) = c :: crlf t := by
  rw [crlf, List.flatMap_cons, if_neg hc]
  rfl

theorem exists_crlf_cons_of_isLineBreak {c : Char} (h : isLineBreak c = true) (t : Text) :
    ∃ r, crlf (c :: t) = '\r' :: r := by
  rcases isLineBreak_iff.mp h with rfl | rfl
  · exact ⟨crlf t, rfl⟩
  · exact ⟨'\n' :: crlf t, rfl⟩

theorem crlf_flatten (ls : List Text) : crlf ls.flatten = (ls.map crlf).flatten := by
  induction ls with
  | nil => rfl
  | cons l ls ih => rw [List.flatten_cons, crlf_append, ih, List.map_cons, List.flatten_cons]

theorem crlf_of_not_mem {t : Text} (h : '\n' ∉ t) : crlf t = t := by
  induction t with
  | nil => rfl
  | cons c cs ih =>
    rw [List.mem_cons, not_or] at h
    rw [crlf_cons_of_ne (Ne.symm h.1), ih h.2]

theorem newline_mem_crlf {t : Text} : '\n' ∈ crlf t ↔ '\n' ∈ t := by
  constructor
  · intro h
    obtain ⟨c, hc, hmem⟩ := List.mem_flatMap.mp h
    by_cases heq : c = '\n'
    · exact heq ▸ hc
    · rw [if_neg heq, List.mem_singleton] at hmem
      exact absurd hmem.symm heq
  · exact fun h => List.mem_flatMap.mpr ⟨'\n', h, List.mem_cons_of_mem _ List.mem_cons_self⟩

/-- A word without line feeds is written in one way. -/
theorem crlf_eq_iff {t word : Text} (h : '\n' ∉ word) : crlf t = word ↔ t = word := by
  constructor
  · rintro rfl
    exact (crlf_of_not_mem fun hmem => h (newline_mem_crlf.mpr hmem)).symm
  · rintro rfl
    exact crlf_of_not_mem h

theorem crlf_eq_nil_iff {t : Text} : crlf t = [] ↔ t = [] := crlf_eq_iff List.not_mem_nil

/-- What the text written with carriage returns starts with, if not with one. -/
theorem exists_of_crlf_eq_cons {t : Text} {c : Char} {r : Text} (h : crlf t = c :: r)
    (hc : c ≠ '\r') : ∃ r', t = c :: r' ∧ r = crlf r' := by
  cases t with
  | nil => cases h
  | cons x xs =>
    by_cases hx : x = '\n'
    · subst hx
      rw [crlf_newline_cons] at h
      exact absurd (List.cons.inj h).1.symm hc
    · rw [crlf_cons_of_ne hx] at h
      obtain ⟨rfl, rfl⟩ := List.cons.inj h
      exact ⟨xs, rfl, rfl⟩

theorem count_crlf (t : Text) : (crlf t).count '\n' = t.count '\n' := by
  induction t with
  | nil => rfl
  | cons c cs ih =>
    by_cases hc : c = '\n'
    · subst hc
      rw [crlf_newline_cons, List.count_cons_of_ne (by decide), List.count_cons_self, ih,
        List.count_cons_self]
    · rw [crlf_cons_of_ne hc, List.count_cons_of_ne hc, ih, List.count_cons_of_ne hc]

theorem isBlank_crlf (t : Text) : (crlf t).isBlank = t.isBlank := by
  induction t with
  | nil => rfl
  | cons c cs ih =>
    by_cases hc : c = '\n'
    · subst hc
      exact ih
    · rw [crlf_cons_of_ne hc, isBlank, isBlank, List.all_cons, List.all_cons, ← isBlank, ih,
        isBlank]

/-- A run of characters of a class that line ends do not belong to stays as it
is, and so does where it ends. -/
theorem takeWhile_crlf {p : Char → Bool} (hcr : p '\r' = false) (hlf : p '\n' = false) (t : Text) :
    (crlf t).takeWhile p = t.takeWhile p ∧ crlf (t.takeWhile p) = t.takeWhile p ∧
      (crlf t).dropWhile p = crlf (t.dropWhile p) := by
  have hrun := crlf_of_not_mem (newline_not_mem_takeWhile hlf t)
  induction t with
  | nil => exact ⟨rfl, rfl, rfl⟩
  | cons c cs ih =>
    by_cases hc : c = '\n'
    · subst hc
      rw [crlf_newline_cons, List.takeWhile_cons_of_neg (by simp [hcr]),
        List.takeWhile_cons_of_neg (by simp [hlf]), List.dropWhile_cons_of_neg (by simp [hcr]),
        List.dropWhile_cons_of_neg (by simp [hlf])]
      exact ⟨rfl, rfl, rfl⟩
    · obtain ⟨htake, -, hdrop⟩ := ih (crlf_of_not_mem (newline_not_mem_takeWhile hlf cs))
      refine ⟨?_, hrun, ?_⟩ <;> rw [crlf_cons_of_ne hc] <;> cases hp : p c <;>
        simp [hp, htake, hdrop, crlf_cons_of_ne hc]

-- ---------------------------------------------------------------------------
-- Lines
-- ---------------------------------------------------------------------------

theorem lines_crlf (t : Text) : lines (crlf t) = (lines t).map crlf := by
  induction t using line_induction with
  | nil => rfl
  | last m hm hne => rw [crlf_of_not_mem hm, lines_of_not_mem hm hne, List.map_singleton,
      crlf_of_not_mem hm]
  | line m rest hm ih =>
    have hm' : '\n' ∉ m ++ ['\r'] := by simpa using hm
    have hcrlf : crlf (m ++ '\n' :: rest) = (m ++ ['\r']) ++ '\n' :: crlf rest := by
      rw [crlf_append, crlf_newline_cons, crlf_of_not_mem hm, List.append_assoc]
      rfl
    rw [hcrlf, lines_terminated_append hm', ih, lines_terminated_append hm, List.map_cons,
      crlf_append, crlf_of_not_mem hm, List.append_assoc]
    rfl

theorem isTerminated_crlf (t : Text) : (crlf t).isTerminated = t.isTerminated := by
  rcases List.eq_nil_or_concat t with rfl | ⟨s, c, rfl⟩
  · rfl
  · rw [List.concat_eq_append, crlf_append, isTerminated, isTerminated]
    by_cases hc : c = '\n'
    · subst hc
      simp [crlf_newline_cons]
    · simp [crlf_cons_of_ne hc]

theorem withoutTerminator_concat (t : Text) (c : Char) :
    withoutTerminator (t ++ [c]) = if isLineBreak c then t.withoutTerminator else t ++ [c] := by
  rw [withoutTerminator, List.reverse_append, List.reverse_singleton, List.singleton_append,
    List.dropWhile_cons]
  split
  · rfl
  · rw [List.reverse_cons, List.reverse_reverse]

theorem withoutTerminator_crlf (t : Text) :
    (crlf t).withoutTerminator = crlf t.withoutTerminator := by
  induction t using List.reverseRecOn with
  | nil => rfl
  | append_singleton t c ih =>
    rw [crlf_append, withoutTerminator_concat]
    by_cases hc : c = '\n'
    · subst hc
      have hpair : crlf ['\n'] = ['\r'] ++ ['\n'] := rfl
      rw [hpair, ← List.append_assoc, withoutTerminator_concat, withoutTerminator_concat]
      exact ih
    · rw [crlf_cons_of_ne hc, crlf_nil, withoutTerminator_concat]
      split
      · exact ih
      · rw [crlf_append, crlf_cons_of_ne hc, crlf_nil]

theorem terminator_crlf (t : Text) : (crlf t).terminator = crlf t.terminator := by
  have hsplit : (crlf t).withoutTerminator ++ (crlf t).terminator =
      crlf (t.withoutTerminator ++ t.terminator) := by
    rw [withoutTerminator_append_terminator, withoutTerminator_append_terminator]
  rw [crlf_append, withoutTerminator_crlf] at hsplit
  exact List.append_cancel_left hsplit

theorem dropLast_crlf {t : Text} (h : t.getLast? ≠ some '\n') :
    (crlf t).dropLast = crlf t.dropLast := by
  rcases List.eq_nil_or_concat t with rfl | ⟨s, c, rfl⟩
  · rfl
  · rw [List.concat_eq_append] at h ⊢
    have hc : c ≠ '\n' := by
      rintro rfl
      exact h List.getLast?_concat
    rw [crlf_append, crlf_cons_of_ne hc, crlf_nil, List.dropLast_concat, List.dropLast_concat]

-- ---------------------------------------------------------------------------
-- Positions
-- ---------------------------------------------------------------------------

/-- A carriage return takes a column, but the line feed behind it starts
columns afresh. -/
theorem advance_crlf (p : Position) (t : Text) : p.advance (crlf t) = p.advance t := by
  induction t generalizing p with
  | nil => rfl
  | cons c cs ih =>
    by_cases hc : c = '\n'
    · subst hc
      rw [crlf_newline_cons, Position.advance_cons, Position.advance_cons, Position.advance_cons,
        ih]
      rfl
    · rw [crlf_cons_of_ne hc, Position.advance_cons, Position.advance_cons, ih]

/-- Where a boundary of the text lies once the carriage returns are there. -/
def crlfOffset (t : Text) (n : Nat) : Nat :=
  match t.takeBytes? n with
  | some before => (crlf before).byteLength
  | none => n

theorem crlfOffset_append (before after : Text) :
    (before ++ after).crlfOffset before.byteLength = (crlf before).byteLength := by
  rw [crlfOffset, takeBytes?_append]

end Text

end FenceFacts
