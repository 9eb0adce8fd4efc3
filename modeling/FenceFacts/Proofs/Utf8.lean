import FenceFacts.Text.Utf8
import Mathlib.Tactic.Common

/-!
# FenceFacts — UTF-8 read back

The bytes of a text are read as that text.  A character has one byte to four.
The first one tells how many follow, and what it demands of the second one
holds, as the encoding is the shortest one and no character is a surrogate.

The bytes of ASCII stand for themselves: all other characters have bytes above
them only.

## Results

* `decode_encode` — bytes of a text.
* `exists_append_of_getElem?_encode` — bytes of ASCII in it.
-/

namespace FenceFacts.Utf8

-- ---------------------------------------------------------------------------
-- First bytes
-- ---------------------------------------------------------------------------

theorem opening_one : ∀ n < 0x80, opening (UInt8.ofNat n) = .char (Char.ofNat n) := by decide

theorem opening_two : ∀ bits < 0x20, 2 ≤ bits →
    opening (UInt8.ofNat (bits + 0xC0)) =
      .sequence { seen := 1, payload := bits, missing := 1 } := by
  decide

theorem opening_three : ∀ bits < 0x10,
    opening (UInt8.ofNat (bits + 0xE0)) = .sequence {
      seen := 1, payload := bits, missing := 2
      low := if bits = 0 then 0xA0 else 0x80
      high := if bits = 0xD then 0x9F else 0xBF } := by
  decide

theorem opening_four : ∀ bits < 5,
    opening (UInt8.ofNat (bits + 0xF0)) = .sequence {
      seen := 1, payload := bits, missing := 3
      low := if bits = 0 then 0x90 else 0x80
      high := if bits = 4 then 0x8F else 0xBF } := by
  decide

-- ---------------------------------------------------------------------------
-- The bytes behind
-- ---------------------------------------------------------------------------

section Behind

variable {s : Sequence} {b : UInt8} {c : Char} {bits : Nat}

theorem toNat_behind (hbits : bits < 0x40) : (UInt8.ofNat (bits + 0x80)).toNat = bits + 0x80 := by
  rw [UInt8.toNat_ofNat']
  omega

theorem accepts_behind (hbits : bits < 0x40) (hlow : s.low.toNat ≤ bits + 0x80)
    (hhigh : bits + 0x80 ≤ s.high.toNat) : s.accepts (UInt8.ofNat (bits + 0x80)) = true := by
  rw [Sequence.accepts, Bool.and_eq_true, decide_eq_true_eq, decide_eq_true_eq,
    UInt8.le_iff_toNat_le, UInt8.le_iff_toNat_le, toNat_behind hbits]
  exact ⟨hlow, hhigh⟩

/-- The second byte is taken if it keeps to the bounds that some first bytes set. -/
theorem accepts_second {seen payload missing : Nat} {low high : UInt8} {p q : Prop} [Decidable p]
    [Decidable q] (hbits : bits < 0x40) (hlow : p → low.toNat ≤ bits + 0x80)
    (hhigh : q → bits + 0x80 ≤ high.toNat) :
    Sequence.accepts
      ⟨seen, payload, missing, if p then low else 0x80, if q then high else 0xBF⟩
      (UInt8.ofNat (bits + 0x80)) = true := by
  refine accepts_behind hbits ?_ ?_
  · show (if p then low else 0x80).toNat ≤ bits + 0x80
    split
    · next hp => exact hlow hp
    · exact Nat.le_add_left _ _
  · show bits + 0x80 ≤ (if q then high else 0xBF).toNat
    split
    · next hq => exact hhigh hq
    · show _ ≤ 0xBF
      omega

/-- Past the second byte every byte that stands behind another is taken. -/
theorem next_accepts_behind (hbits : bits < 0x40) :
    (s.next b).accepts (UInt8.ofNat (bits + 0x80)) = true := by
  refine accepts_behind hbits (Nat.le_add_left _ _) ?_
  show bits + 0x80 ≤ 0xBF
  omega

theorem payload_next : (s.next b).payload = s.extended b := rfl

theorem extended_behind (hbits : bits < 0x40) :
    s.extended (UInt8.ofNat (bits + 0x80)) = s.payload * 64 + bits := by
  have hbyte := toNat_behind hbits
  unfold Sequence.extended
  omega

variable (index : Nat) (bs : List UInt8)

theorem decodeFrom_opening (h : opening b = .sequence s) :
    decodeFrom index none (b :: bs) = decodeFrom (index + 1) (some s) bs := by
  rw [decodeFrom, h]

theorem decodeFrom_next (haccepts : s.accepts b = true) (hmissing : s.missing ≠ 1) :
    decodeFrom index (some s) (b :: bs) = decodeFrom (index + 1) (some (s.next b)) bs := by
  rw [decodeFrom, if_neg (by simp [haccepts]), if_neg hmissing]

theorem decodeFrom_last (haccepts : s.accepts b = true) (hmissing : s.missing = 1)
    (hchar : s.extended b = c.toNat) :
    decodeFrom index (some s) (b :: bs) = (decodeFrom (index + 1) none bs).map (c :: ·) := by
  rw [decodeFrom, if_neg (by simp [haccepts]), if_pos hmissing, hchar, Char.ofNat_toNat]

end Behind

-- ---------------------------------------------------------------------------
-- Characters
-- ---------------------------------------------------------------------------

section Characters

variable {c : Char} {n : Nat} (hn : c.toNat = n) (index : Nat) (bs : List UInt8)

theorem low_bits (n : Nat) : n % 0x40 < 0x40 := Nat.mod_lt n (by decide)

include hn

theorem decodeFrom_one (hone : n ≤ 0x7F) :
    decodeFrom index none ([UInt8.ofNat n] ++ bs) =
      (decodeFrom (index + 1) none bs).map (c :: ·) := by
  rw [List.singleton_append, decodeFrom, opening_one n (by omega), ← hn, Char.ofNat_toNat]

theorem decodeFrom_two (hone : ¬ n ≤ 0x7F) (htwo : n ≤ 0x7FF) :
    decodeFrom index none
        ([UInt8.ofNat (n / 64 % 0x20 + 0xC0), UInt8.ofNat (n % 0x40 + 0x80)] ++ bs) =
      (decodeFrom (index + 1 + 1) none bs).map (c :: ·) := by
  have hfirst := opening_two (n / 64 % 0x20) (Nat.mod_lt _ (by decide)) (by omega)
  refine (decodeFrom_opening _ _ hfirst).trans <|
    decodeFrom_last _ _ (accepts_behind (low_bits n) (Nat.le_add_left _ _) ?_) rfl ?_
  · show n % 0x40 + 0x80 ≤ 0xBF
    omega
  · rw [extended_behind (low_bits n), hn]
    show n / 64 % 0x20 * 64 + n % 0x40 = n
    omega

theorem decodeFrom_three (htwo : ¬ n ≤ 0x7FF) (hthree : n ≤ 0xFFFF) :
    decodeFrom index none
        ([UInt8.ofNat (n / 4096 % 0x10 + 0xE0), UInt8.ofNat (n / 64 % 0x40 + 0x80),
          UInt8.ofNat (n % 0x40 + 0x80)] ++ bs) =
      (decodeFrom (index + 1 + 1 + 1) none bs).map (c :: ·) := by
  have hvalid : n < 0xD800 ∨ 0xDFFF < n ∧ n < 0x110000 := hn ▸ c.valid
  have hfirst := opening_three (n / 4096 % 0x10) (Nat.mod_lt _ (by decide))
  refine (decodeFrom_opening _ _ hfirst).trans <|
    (decodeFrom_next _ _ (accepts_second (low_bits (n / 64)) ?_ ?_)
      (show 2 ≠ 1 by decide)).trans <|
    decodeFrom_last _ _ (next_accepts_behind (low_bits n)) rfl ?_
  · -- there is no shorter form
    intro hleading
    show 0xA0 ≤ _
    omega
  · -- it is no surrogate
    intro hleading
    show _ ≤ 0x9F
    omega
  · rw [extended_behind (low_bits n), payload_next, extended_behind (low_bits _), hn]
    show (n / 4096 % 0x10 * 64 + n / 64 % 0x40) * 64 + n % 0x40 = n
    omega

theorem decodeFrom_four (hthree : ¬ n ≤ 0xFFFF) :
    decodeFrom index none
        ([UInt8.ofNat (n / 262144 % 8 + 0xF0), UInt8.ofNat (n / 4096 % 0x40 + 0x80),
          UInt8.ofNat (n / 64 % 0x40 + 0x80), UInt8.ofNat (n % 0x40 + 0x80)] ++ bs) =
      (decodeFrom (index + 1 + 1 + 1 + 1) none bs).map (c :: ·) := by
  have hvalid : n < 0xD800 ∨ 0xDFFF < n ∧ n < 0x110000 := hn ▸ c.valid
  have hfirst := opening_four (n / 262144 % 8) (by omega)
  refine (decodeFrom_opening _ _ hfirst).trans <|
    (decodeFrom_next _ _ (accepts_second (low_bits (n / 4096)) ?_ ?_)
      (show 3 ≠ 1 by decide)).trans <|
    (decodeFrom_next _ _ (next_accepts_behind (low_bits (n / 64))) ?_).trans <|
    decodeFrom_last _ _ (next_accepts_behind (low_bits n)) rfl ?_
  · -- there is no shorter form
    intro hleading
    show 0x90 ≤ _
    omega
  · -- it does not lie past the last character
    intro hleading
    show _ ≤ 0x8F
    omega
  · show 3 - 1 ≠ 1
    decide
  · rw [extended_behind (low_bits n), payload_next, extended_behind (low_bits _), payload_next,
      extended_behind (low_bits _), hn]
    show ((n / 262144 % 8 * 64 + n / 4096 % 0x40) * 64 + n / 64 % 0x40) * 64 + n % 0x40 = n
    omega

end Characters

/-- A character is read from **its bytes**. -/
theorem exists_decodeFrom_character (c : Char) (index : Nat) (bs : List UInt8) :
    ∃ index', decodeFrom index none (String.utf8EncodeChar c ++ bs) =
      (decodeFrom index' none bs).map (c :: ·) := by
  rw [String.utf8EncodeChar, Char.toNat_val]
  split
  · next hone => exact ⟨_, decodeFrom_one rfl index bs hone⟩
  split
  · next hone htwo => exact ⟨_, decodeFrom_two rfl index bs hone htwo⟩
  split
  · next htwo hthree => exact ⟨_, decodeFrom_three rfl index bs htwo hthree⟩
  · next hthree => exact ⟨_, decodeFrom_four rfl index bs hthree⟩

-- ---------------------------------------------------------------------------
-- Texts
-- ---------------------------------------------------------------------------

theorem decodeFrom_encode (t : Text) (index : Nat) : decodeFrom index none t.encode = .ok t := by
  induction t generalizing index with
  | nil => rfl
  | cons c t ih =>
    obtain ⟨index', hcharacter⟩ := exists_decodeFrom_character c index (Text.encode t)
    rw [Text.encode, List.flatMap_cons]
    rw [Text.encode] at hcharacter
    rw [hcharacter, ← Text.encode, ih index']
    rfl

/-- The bytes of a text are read as **that text**. -/
theorem decode_encode (t : Text) : decode t.encode = .ok t := decodeFrom_encode t 0

-- ---------------------------------------------------------------------------
-- Bytes of ASCII
-- ---------------------------------------------------------------------------

section Ascii

variable {b : UInt8} (hb : b.toNat < 0x80)

include hb

/-- A byte of ASCII belongs to one character only, which has no other byte. -/
theorem eq_of_mem_utf8EncodeChar {c : Char} (h : b ∈ String.utf8EncodeChar c) :
    String.utf8EncodeChar c = [b] ∧ c = Char.ofNat b.toNat := by
  -- the bytes of the other characters are all above
  have habove (n low size : Nat) (hlow : 0x80 ≤ low) (hsize : 0 < size ∧ low + size ≤ 256) :
      b ≠ UInt8.ofNat (n % size + low) := by
    rintro rfl
    have hmod := Nat.mod_lt n hsize.1
    rw [UInt8.toNat_ofNat'] at hb
    omega
  rw [String.utf8EncodeChar, Char.toNat_val] at h ⊢
  split at h
  · next hone =>
    obtain rfl := List.mem_singleton.mp h
    have hbyte : (UInt8.ofNat c.toNat).toNat = c.toNat := by
      rw [UInt8.toNat_ofNat']
      omega
    rw [if_pos hone, hbyte, Char.ofNat_toNat]
    exact ⟨rfl, rfl⟩
  · exfalso
    have hnext (n : Nat) := habove n 0x80 64 (by decide) (by decide)
    have htwo (n : Nat) := habove n 0xC0 32 (by decide) (by decide)
    have hthree (n : Nat) := habove n 0xE0 16 (by decide) (by decide)
    have hfour (n : Nat) := habove n 0xF0 8 (by decide) (by decide)
    split at h
    · simp only [List.mem_cons, List.not_mem_nil, hnext, htwo, or_self] at h
    · split at h
      · simp only [List.mem_cons, List.not_mem_nil, hnext, hthree, or_self] at h
      · simp only [List.mem_cons, List.not_mem_nil, hnext, hfour, or_self] at h

/-- A byte of ASCII in the bytes of a text is a character of it, which stands
**where the byte does**. -/
theorem exists_append_of_getElem?_encode {t : Text} {n : Nat} (h : t.encode[n]? = some b) :
    ∃ before after, t = before ++ Char.ofNat b.toNat :: after ∧ before.byteLength = n := by
  induction t generalizing n with
  | nil => cases h
  | cons c cs ih =>
    rw [Text.encode, List.flatMap_cons, List.getElem?_append] at h
    split at h
    · next hlt =>
      obtain ⟨hone, rfl⟩ := eq_of_mem_utf8EncodeChar hb (List.mem_of_getElem? h)
      rw [hone, List.length_singleton] at hlt
      exact ⟨[], cs, rfl, by rw [Text.byteLength_nil]; omega⟩
    · next hle =>
      obtain ⟨before, after, rfl, hbytes⟩ := ih h
      rw [String.length_utf8EncodeChar] at hle hbytes
      refine ⟨c :: before, after, rfl, ?_⟩
      rw [Text.byteLength_cons]
      omega

end Ascii

end FenceFacts.Utf8
