import FenceFacts.Proofs.PositionMaps

/-!
# FenceFacts — what translators do to positions

A translator adds its anchor to a position: lines to lines, and columns to
columns where the position is on the first line of its snippet.  The place of a
position in the document is made of these sums.  They have a bound, and a
position whose sums reach it is not translated.

Positions count from one.  On those, a translator maps the first position to
its anchor and keeps the order, and nothing at or behind the anchor is left
out.  Two translators, one after the other, are a translator again: that of
the place where the anchor of the first one goes.

## Results

* `translate_eq`            — a position is translated to its place, if that is in range.
* `place_lt_iff`            — order.
* `place_origin`            — everything at or behind the anchor is the place of a position.
* `translate_bind_translate` — one translator after the other.
* `translators_keep_order`  — all of it.
-/

namespace FenceFacts

namespace Position

/-- Lines and columns count from one. -/
structure IsCounted (p : Position) : Prop where
  one_le_line : 1 ≤ p.line
  one_le_column : 1 ≤ p.column

/-- Both numbers are below the bound. -/
structure InRange (p : Position) : Prop where
  line_lt : p.line < bound
  column_lt : p.column < bound

/-- On the line of `a`, at its column or further right, or on a later line. -/
def AtOrBehind (a q : Position) : Prop :=
  q.line = a.line ∧ a.column ≤ q.column ∨ a.line < q.line ∧ 1 ≤ q.column

/-- Of two positions neither of which is before the other there is only one. -/
theorem eq_of_not_lt {p q : Position} (hpq : ¬ p < q) (hqp : ¬ q < p) : p = q := by
  obtain ⟨line, column⟩ := p
  obtain ⟨line', column'⟩ := q
  rw [lt_iff] at hpq hqp
  dsimp only at hpq hqp
  rw [mk.injEq]
  omega

end Position

/-- The location does not end before it starts. -/
def Location.IsForward (l : Location) : Prop := l.start = l.stop ∨ l.start < l.stop

namespace Translator

variable {t : Translator} {p p' q : Position}

-- ---------------------------------------------------------------------------
-- Places
-- ---------------------------------------------------------------------------

/-- Where the position is in the document. -/
def place (t : Translator) (p : Position) : Position :=
  ⟨t.anchor.line + (p.line - 1), if p.line ≤ 1 then t.anchor.column + (p.column - 1) else p.column⟩

/-- None of the sums for the position reaches the bound. -/
def Fits (t : Translator) (p : Position) : Prop :=
  t.anchor.line + (p.line - 1) < Position.bound ∧
    (p.line ≤ 1 → t.anchor.column + (p.column - 1) < Position.bound)

instance (t : Translator) (p : Position) : Decidable (t.Fits p) :=
  inferInstanceAs (Decidable (_ ∧ (_ → _)))

/-- A position is translated **to its place**, unless that is out of range. -/
theorem translate_eq (t : Translator) (p : Position) :
    t.translate p = if t.Fits p then .ok (t.place p) else .error .outOfRange := by
  unfold translate Fits place Position.sum
  by_cases hline : t.anchor.line + (p.line - 1) < Position.bound
  · by_cases hfirst : p.line ≤ 1
    · by_cases hcolumn : t.anchor.column + (p.column - 1) < Position.bound
      · simp only [hline, hfirst, hcolumn, if_true, true_and, true_imp_iff]
        rfl
      · simp only [hline, hfirst, hcolumn, if_true, if_false, true_and, true_imp_iff]
        rfl
    · simp only [hline, hfirst, if_true, if_false, true_and, false_imp_iff]
      rfl
  · simp only [hline, if_false, false_and]
    rfl

theorem translate_eq_ok_iff : t.translate p = .ok q ↔ t.Fits p ∧ q = t.place p := by
  rw [translate_eq]
  split
  · next h => simp [h, eq_comm]
  · next h => simp [h]

theorem place_first (t : Translator) : t.place .first = t.anchor := rfl

theorem atOrBehind_place (hp : p.IsCounted) : t.anchor.AtOrBehind (t.place p) := by
  obtain ⟨hline, hcolumn⟩ := hp
  unfold Position.AtOrBehind place
  dsimp only
  split <;> omega

-- ---------------------------------------------------------------------------
-- Order
-- ---------------------------------------------------------------------------

/-- Places are in the **order** of the positions. -/
theorem place_lt_iff (hp : p.IsCounted) (hp' : p'.IsCounted) :
    t.place p < t.place p' ↔ p < p' := by
  obtain ⟨hline, hcolumn⟩ := hp
  obtain ⟨hline', hcolumn'⟩ := hp'
  rw [Position.lt_iff, Position.lt_iff]
  unfold place
  dsimp only
  -- columns are only compared on the same line, where both have moved or neither has
  split <;> split <;> omega

theorem place_injective (hp : p.IsCounted) (hp' : p'.IsCounted) (h : t.place p = t.place p') :
    p = p' := by
  refine Position.eq_of_not_lt (fun hlt => ?_) (fun hlt => ?_)
  · rw [← place_lt_iff (t := t) hp hp', h] at hlt
    exact Position.lt_irrefl _ hlt
  · rw [← place_lt_iff (t := t) hp' hp, h] at hlt
    exact Position.lt_irrefl _ hlt

/-- The position that has its place here. -/
def origin (t : Translator) (q : Position) : Position :=
  if q.line ≤ t.anchor.line then ⟨1, q.column - t.anchor.column + 1⟩
  else ⟨q.line - t.anchor.line + 1, q.column⟩

theorem isCounted_origin (hq : t.anchor.AtOrBehind q) : (t.origin q).IsCounted := by
  unfold origin
  rcases hq with ⟨hsame, -⟩ | ⟨hbelow, hone⟩
  · rw [if_pos (by omega)]
    exact ⟨Nat.le_refl 1, Nat.le_add_left 1 _⟩
  · rw [if_neg (by omega)]
    exact ⟨Nat.le_add_left 1 _, hone⟩

/-- Whatever is at or behind the anchor is **the place of a position**. -/
theorem place_origin (hq : t.anchor.AtOrBehind q) : t.place (t.origin q) = q := by
  obtain ⟨line, column⟩ := q
  unfold place origin
  rcases hq with ⟨hsame, hright⟩ | ⟨hbelow, -⟩
  · dsimp only at hsame hright ⊢
    rw [if_pos (by omega), if_pos (Nat.le_refl 1), Position.mk.injEq]
    dsimp only
    omega
  · dsimp only at hbelow ⊢
    rw [if_neg (by omega), if_neg (by dsimp only; omega), Position.mk.injEq]
    dsimp only
    omega

theorem fits_origin (hq : t.anchor.AtOrBehind q) (hrange : q.InRange) : t.Fits (t.origin q) := by
  obtain ⟨hline, hcolumn⟩ := hrange
  unfold Fits origin
  rcases hq with ⟨hsame, hright⟩ | ⟨hbelow, -⟩
  · rw [if_pos (by omega)]
    dsimp only
    omega
  · rw [if_neg (by omega)]
    dsimp only
    omega

/-- A location runs **forward** where its translation does. -/
theorem isForward_iff_of_translateLocation {l l' : Location} (hstart : l.start.IsCounted)
    (hstop : l.stop.IsCounted) (h : t.translateLocation l = .ok l') :
    l'.IsForward ↔ l.IsForward := by
  unfold translateLocation at h
  rw [translate_eq, translate_eq] at h
  split at h
  · split at h
    · cases h
      refine or_congr ⟨place_injective hstart hstop, fun heq => ?_⟩ (place_lt_iff hstart hstop)
      rw [heq]
    · cases h
  · cases h

-- ---------------------------------------------------------------------------
-- One after the other
-- ---------------------------------------------------------------------------

section Composition

variable {a b c : Position}

/-- The place of a place is that for **the anchor's place**. -/
theorem place_place (hb : b.IsCounted) (hp : p.IsCounted) :
    (⟨a⟩ : Translator).place ((⟨b⟩ : Translator).place p) =
      (⟨(⟨a⟩ : Translator).place b⟩ : Translator).place p := by
  obtain ⟨hbline, hbcolumn⟩ := hb
  obtain ⟨hline, hcolumn⟩ := hp
  unfold place
  dsimp only
  rw [Position.mk.injEq]
  -- the column moves twice where both lines are the first
  refine ⟨by omega, ?_⟩
  by_cases hfirst : p.line ≤ 1
  · simp only [hfirst, if_true]
    split <;> split <;> omega
  · simp only [hfirst, if_false]
    split <;> omega

/-- Both sums stay in range where the ones for the anchor's place do. -/
theorem fits_place_iff (ha : a.IsCounted) (hb : b.IsCounted) (hp : p.IsCounted)
    (hfits : (⟨a⟩ : Translator).Fits b) :
    (⟨b⟩ : Translator).Fits p ∧ (⟨a⟩ : Translator).Fits ((⟨b⟩ : Translator).place p) ↔
      (⟨(⟨a⟩ : Translator).place b⟩ : Translator).Fits p := by
  obtain ⟨haline, hacolumn⟩ := ha
  obtain ⟨hbline, hbcolumn⟩ := hb
  obtain ⟨hline, hcolumn⟩ := hp
  unfold Fits place at *
  dsimp only at *
  split <;> split <;> omega

/-- Translating by one translator and then by another is **one translation**,
also where there is no answer. -/
theorem translate_bind_translate (ha : a.IsCounted) (hb : b.IsCounted) (hp : p.IsCounted)
    (hc : (⟨a⟩ : Translator).translate b = .ok c) :
    (⟨b⟩ : Translator).translate p >>= (⟨a⟩ : Translator).translate =
      (⟨c⟩ : Translator).translate p := by
  obtain ⟨hfits, rfl⟩ := translate_eq_ok_iff.mp hc
  have hboth := fits_place_iff ha hb hp hfits
  rw [translate_eq _ p, translate_eq _ p]
  by_cases hinner : (⟨b⟩ : Translator).Fits p
  · rw [if_pos hinner]
    show (⟨a⟩ : Translator).translate _ = _
    rw [translate_eq, place_place hb hp]
    simp only [hinner, true_and] at hboth
    simp only [hboth]
  · rw [if_neg hinner, if_neg fun h => hinner (hboth.mpr h).1]
    rfl

end Composition

end Translator

-- ---------------------------------------------------------------------------
-- Translators
-- ---------------------------------------------------------------------------

/-- A translator is an **order isomorphism** from the positions of its snippet
to those at or behind its anchor, as far as they are in range, and translators
**compose**. -/
theorem translators_keep_order {a : Position} (ha : a.IsCounted) (hrange : a.InRange) :
    (⟨a⟩ : Translator).translate .first = .ok a ∧
    (∀ p, p.IsCounted → (⟨a⟩ : Translator).Fits p →
      ∃ q, (⟨a⟩ : Translator).translate p = .ok q ∧ a.AtOrBehind q) ∧
    (∀ p p' q q', p.IsCounted → p'.IsCounted → (⟨a⟩ : Translator).translate p = .ok q →
      (⟨a⟩ : Translator).translate p' = .ok q' → (q < q' ↔ p < p')) ∧
    (∀ q, a.AtOrBehind q → q.InRange →
      ∃! p, p.IsCounted ∧ (⟨a⟩ : Translator).translate p = .ok q) ∧
    (∀ l l', l.start.IsCounted → l.stop.IsCounted →
      (⟨a⟩ : Translator).translateLocation l = .ok l' → (l'.IsForward ↔ l.IsForward)) ∧
    ∀ b c p, b.IsCounted → p.IsCounted → (⟨a⟩ : Translator).translate b = .ok c →
      (⟨b⟩ : Translator).translate p >>= (⟨a⟩ : Translator).translate =
        (⟨c⟩ : Translator).translate p := by
  refine ⟨?_, ?_, ?_, ?_, ?_, ?_⟩
  · exact Translator.translate_eq_ok_iff.mpr ⟨⟨hrange.line_lt, fun _ => hrange.column_lt⟩, rfl⟩
  · intro p hp hfits
    exact ⟨_, Translator.translate_eq_ok_iff.mpr ⟨hfits, rfl⟩, Translator.atOrBehind_place hp⟩
  · intro p p' q q' hp hp' hq hq'
    obtain ⟨-, rfl⟩ := Translator.translate_eq_ok_iff.mp hq
    obtain ⟨-, rfl⟩ := Translator.translate_eq_ok_iff.mp hq'
    exact Translator.place_lt_iff hp hp'
  · intro q hq hqrange
    have horigin := Translator.place_origin (t := ⟨a⟩) hq
    refine ⟨(⟨a⟩ : Translator).origin q, ⟨Translator.isCounted_origin hq, ?_⟩, ?_⟩
    · exact Translator.translate_eq_ok_iff.mpr ⟨Translator.fits_origin hq hqrange, horigin.symm⟩
    · rintro p ⟨hp, htranslate⟩
      obtain ⟨-, hplace⟩ := Translator.translate_eq_ok_iff.mp htranslate
      exact Translator.place_injective hp (Translator.isCounted_origin hq)
        (hplace.symm.trans horigin.symm)
  · intro l l' hstart hstop h
    exact Translator.isForward_iff_of_translateLocation hstart hstop h
  · intro b c p hb hp hc
    exact Translator.translate_bind_translate ha hb hp hc

/-- A snippet in the third line, from the seventh column on, and one that starts
four columns further inside of it. -/
theorem translators_keep_order_nested :
    (⟨3, 7⟩ : Position).IsCounted ∧ (⟨3, 7⟩ : Position).InRange ∧
    (⟨⟨3, 7⟩⟩ : Translator).translate ⟨1, 5⟩ = .ok ⟨3, 11⟩ ∧
    (⟨⟨1, 5⟩⟩ : Translator).translate ⟨1, 2⟩ >>= (⟨⟨3, 7⟩⟩ : Translator).translate =
      (⟨⟨3, 11⟩⟩ : Translator).translate ⟨1, 2⟩ ∧
    ∃! p : Position, p.IsCounted ∧ (⟨⟨3, 7⟩⟩ : Translator).translate p = .ok ⟨4, 1⟩ := by
  have hanchor : (⟨3, 7⟩ : Position).IsCounted := ⟨by decide, by decide⟩
  have hrange : (⟨3, 7⟩ : Position).InRange := ⟨by decide, by decide⟩
  have htranslate : (⟨⟨3, 7⟩⟩ : Translator).translate ⟨1, 5⟩ = .ok ⟨3, 11⟩ := rfl
  obtain ⟨-, -, -, honly, -, hcomposes⟩ := translators_keep_order hanchor hrange
  exact ⟨hanchor, hrange, htranslate,
    hcomposes _ _ _ ⟨by decide, by decide⟩ ⟨by decide, by decide⟩ htranslate,
    honly ⟨4, 1⟩ (Or.inr ⟨by decide, by decide⟩) ⟨by decide, by decide⟩⟩

end FenceFacts
