import FenceFacts.Proofs.Lexicon.Pattern

/-!
# FenceFacts — the longest match

Among the texts of several kinds, the longest one that a text starts with.  It
counts only where it has one kind: another kind with the same text would be a
tie.

A match is built up from its end.  What is matched behind a first character is
matched with it if every kind takes that character, so a reader that goes on
character by character has one step to justify at a time.

## Results

* `LongestMatch.stop`    — no character more.
* `LongestMatch.cons`    — one character more in front.
* `LongestMatch.relabel` — the same texts under other kinds.
* `LongestMatch.run`     — as many characters of a class as there are.
-/

namespace FenceFacts

/-- The longest text of any kind that `t` starts with is `p`, and `k` is its
only kind. -/
structure LongestMatch {κ : Type} (texts : κ → Language Char) (t : Text) (k : κ) (p : Text) :
    Prop where
  /-- It is what `t` starts with. -/
  front : p <+: t
  mem : p ∈ texts k
  longest : ∀ k', ∀ q ∈ texts k', q <+: t → q.length < p.length ∨ q = p ∧ k' = k

namespace LongestMatch

variable {κ κ' : Type} {texts : κ → Language Char} {t p : Text} {k : κ}

/-- At the end of the text. -/
theorem atEnd (hnil : ∀ k', [] ∈ texts k' ↔ k' = k) : LongestMatch texts [] k [] := by
  refine ⟨List.prefix_rfl, (hnil k).mpr rfl, fun k' q hq hfront => ?_⟩
  obtain rfl := List.prefix_nil.mp hfront
  exact Or.inr ⟨rfl, (hnil k').mp hq⟩

/-- Nothing is matched where no kind takes the next character. -/
theorem stop {c : Char} (hnil : ∀ k', [] ∈ texts k' ↔ k' = k)
    (hstop : ∀ k', ∀ q, q <+: t → c :: q ∉ texts k') : LongestMatch texts (c :: t) k [] := by
  refine ⟨List.nil_prefix, (hnil k).mpr rfl, fun k' q hq hfront => ?_⟩
  cases q with
  | nil => exact Or.inr ⟨rfl, (hnil k').mp hq⟩
  | cons d q =>
    obtain ⟨rfl, hrest⟩ := List.cons_prefix_cons.mp hfront
    exact absurd hq (hstop k' q hrest)

/-- One character more in front.  `rests` are the texts of the kinds behind
it. -/
theorem cons {rests : κ → Language Char} {c : Char} (h : LongestMatch rests t k p)
    (hstep : ∀ k', ∀ q, q <+: t → (c :: q ∈ texts k' ↔ q ∈ rests k')) :
    LongestMatch texts (c :: t) k (c :: p) := by
  refine ⟨List.cons_prefix_cons.mpr ⟨rfl, h.front⟩, (hstep k p h.front).mpr h.mem, ?_⟩
  intro k' q hq hfront
  cases q with
  | nil => exact Or.inl (Nat.succ_pos p.length)
  | cons d q =>
    obtain ⟨rfl, hrest⟩ := List.cons_prefix_cons.mp hfront
    rcases h.longest k' q ((hstep k' q hrest).mp hq) hrest with hlt | ⟨rfl, rfl⟩
    · exact Or.inl (Nat.succ_lt_succ hlt)
    · exact Or.inr ⟨rfl, rfl⟩

/-- Two characters more in front. -/
theorem cons_cons {rests : κ → Language Char} {c d : Char} (h : LongestMatch rests t k p)
    (hstep : ∀ k', ∀ q, q <+: t → (c :: d :: q ∈ texts k' ↔ q ∈ rests k')) :
    LongestMatch texts (c :: d :: t) k (c :: d :: p) := by
  have hbehind : LongestMatch (fun k' => {q | c :: q ∈ texts k'}) (d :: t) k (d :: p) :=
    h.cons hstep
  exact hbehind.cons fun _ _ _ => Iff.rfl

/-- Other kinds for the same texts. -/
theorem relabel (h : LongestMatch texts t k p) (f : κ → κ') :
    LongestMatch (fun k' => {q | ∃ j, k' = f j ∧ q ∈ texts j}) t (f k) p := by
  refine ⟨h.front, ⟨k, rfl, h.mem⟩, ?_⟩
  rintro _ q ⟨j, rfl, hj⟩ hfront
  rcases h.longest j q hj hfront with hlt | ⟨rfl, rfl⟩
  · exact Or.inl hlt
  · exact Or.inr ⟨rfl, rfl⟩

/-- The texts of one language under one of many kinds. -/
theorem only {L : Language Char} (h : LongestMatch (fun _ : Unit => L) t () p) (k : κ) :
    LongestMatch (fun k' => {q | k' = k ∧ q ∈ L}) t k p := by
  refine ⟨h.front, ⟨rfl, h.mem⟩, ?_⟩
  rintro _ q ⟨rfl, hq⟩ hfront
  exact (h.longest () q hq hfront).imp_right fun hsame => ⟨hsame.1, rfl⟩

/-- A character that ends whatever it belongs to. -/
theorem one {c : Char} (hone : ∀ k', ∀ q, q <+: t → (c :: q ∈ texts k' ↔ k' = k ∧ q = [])) :
    LongestMatch texts (c :: t) k [c] := by
  refine ⟨⟨t, rfl⟩, (hone k [] List.nil_prefix).mpr ⟨rfl, rfl⟩, fun k' q hq hfront => ?_⟩
  cases q with
  | nil => exact Or.inl Nat.one_pos
  | cons d q =>
    obtain ⟨rfl, hrest⟩ := List.cons_prefix_cons.mp hfront
    obtain ⟨rfl, rfl⟩ := (hone k' q hrest).mp hq
    exact Or.inr ⟨rfl, rfl⟩

/-- As many characters of a class as there are. -/
theorem run (p : Char → Bool) (t : Text)
    (hiff : ∀ k', ∀ q, q ∈ texts k' ↔ k' = k ∧ ∀ x ∈ q, p x = true) :
    LongestMatch texts t k (t.takeWhile p) := by
  have hnil (k' : κ) : [] ∈ texts k' ↔ k' = k := by
    rw [hiff, and_iff_left (List.forall_mem_nil _)]
  induction t with
  | nil => exact atEnd hnil
  | cons c t ih =>
    by_cases hc : p c = true
    · rw [List.takeWhile_cons_of_pos hc]
      refine ih.cons fun k' q _ => ?_
      rw [hiff, hiff, List.forall_mem_cons, and_iff_right hc]
    · rw [List.takeWhile_cons_of_neg hc]
      exact stop hnil fun k' q _ hq => hc (((hiff k' _).mp hq).2 c List.mem_cons_self)

/-- A text has no other kind than its own longest match. -/
theorem eq_of_whole (h : LongestMatch texts t k p) {k' : κ} (hk' : t ∈ texts k') : k' = k := by
  rcases h.longest k' t hk' List.prefix_rfl with hlt | ⟨-, hk⟩
  · exact absurd hlt (Nat.not_lt.mpr h.front.length_le)
  · exact hk

end LongestMatch

end FenceFacts
