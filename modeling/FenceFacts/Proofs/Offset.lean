import FenceFacts.Text
import Mathlib.Data.List.Basic
import Mathlib.Tactic.Common

/-!
# FenceFacts — byte offsets and the texts around them

An offset that cuts no character splits its text in two.  All statements
about offsets are made through that split: `before.byteLength` is an offset
of `before ++ after`, and what the cutting functions answer there is read off
the two parts.

## Results

* `dropBytes?_append`, `takeBytes?_append`, `slice?_append` — what the cutting
  functions answer at a boundary.
* `charAt?_append` — and which character starts there.
-/

namespace FenceFacts

namespace Text

/-- The offset `n` falls between two characters of `t`, or at an end. -/
def IsBoundary (t : Text) (n : Nat) : Prop :=
  ∃ before after, t = before ++ after ∧ n = before.byteLength

-- ---------------------------------------------------------------------------
-- Lengths
-- ---------------------------------------------------------------------------

theorem utf8Size_ne_zero (c : Char) : c.utf8Size ≠ 0 :=
  Nat.ne_of_gt c.utf8Size_pos

@[simp] theorem byteLength_eq_zero_iff {t : Text} : t.byteLength = 0 ↔ t = [] := by
  cases t with
  | nil => simp
  | cons c cs => simp [utf8Size_ne_zero]

-- ---------------------------------------------------------------------------
-- Cutting
-- ---------------------------------------------------------------------------

theorem dropBytes?_cons (c : Char) (cs : Text) (n : Nat) :
    dropBytes? (c :: cs) (c.utf8Size + n) = dropBytes? cs n := by
  obtain ⟨k, hk⟩ := Nat.exists_eq_succ_of_ne_zero (utf8Size_ne_zero c)
  rw [show c.utf8Size + n = (k + n) + 1 by omega, dropBytes?, if_pos (by omega),
    show k + n + 1 - c.utf8Size = n by omega]

theorem takeBytes?_cons (c : Char) (cs : Text) (n : Nat) :
    takeBytes? (c :: cs) (c.utf8Size + n) = (takeBytes? cs n).map (c :: ·) := by
  obtain ⟨k, hk⟩ := Nat.exists_eq_succ_of_ne_zero (utf8Size_ne_zero c)
  rw [show c.utf8Size + n = (k + n) + 1 by omega, takeBytes?, if_pos (by omega),
    show k + n + 1 - c.utf8Size = n by omega]

theorem dropBytes?_append (before after : Text) :
    dropBytes? (before ++ after) before.byteLength = some after := by
  induction before with
  | nil => cases after <;> rfl
  | cons c cs ih => rw [List.cons_append, byteLength_cons, dropBytes?_cons, ih]

theorem takeBytes?_append (before after : Text) :
    takeBytes? (before ++ after) before.byteLength = some before := by
  induction before with
  | nil => cases after <;> rfl
  | cons c cs ih =>
    rw [List.cons_append, byteLength_cons, takeBytes?_cons, ih]
    rfl

/-- The bytes between two boundaries are the text between them. -/
theorem slice?_append (before piece after : Text) :
    (before ++ (piece ++ after)).slice? before.byteLength
      (before.byteLength + piece.byteLength) = some piece := by
  unfold slice?
  by_cases hp : piece = []
  · subst hp
    simp
  · have hpos : piece.byteLength ≠ 0 := by simpa using hp
    rw [if_neg (by omega), dropBytes?_append, Nat.add_sub_cancel_left]
    exact takeBytes?_append piece after

-- ---------------------------------------------------------------------------
-- Boundaries
-- ---------------------------------------------------------------------------

theorem isBoundary_append (before after : Text) :
    (before ++ after).IsBoundary before.byteLength :=
  ⟨before, after, rfl, rfl⟩

/-- Of two texts that a text starts with, the one with fewer bytes is where the
other starts. -/
theorem exists_append_of_byteLength_le {before after before' after' : Text}
    (h : before ++ after = before' ++ after') (hle : before.byteLength ≤ before'.byteLength) :
    ∃ piece, before' = before ++ piece ∧ after = piece ++ after' := by
  rcases List.append_eq_append_iff.mp h with hpiece | ⟨piece, rfl, hafter⟩
  · exact hpiece
  · rw [byteLength_append] at hle
    obtain rfl : piece = [] := byteLength_eq_zero_iff.mp (by omega)
    exact ⟨[], by simp, hafter.symm⟩

/-- The character that starts at an offset. -/
def charAt? (t : Text) (n : Nat) : Option Char := (t.dropBytes? n).bind List.head?

theorem charAt?_append (before : Text) (c : Char) (after : Text) :
    (before ++ c :: after).charAt? before.byteLength = some c := by
  rw [charAt?, dropBytes?_append]
  rfl

end Text

end FenceFacts
