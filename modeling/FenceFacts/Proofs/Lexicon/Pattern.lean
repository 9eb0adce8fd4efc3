import FenceFacts.Text
import Mathlib.Computability.Language
import Mathlib.Tactic.Common

/-!
# FenceFacts — patterns

Regular patterns over characters: classes of characters, put one behind the
other, side by side, or repeated.  The texts that a pattern matches are a
language, built with the operations that languages have.

Whether a pattern matches a text is found out from the front.  So the lemmas
here tell what is left to be matched once the first character is known.

## Results

* `cons_mem_set_mul` — a class in front of a language.
* `mem_star_mul`     — a repetition in front of a language.
* `mem_star_set`     — a repeated class.
-/

namespace FenceFacts

open scoped Computability

-- ---------------------------------------------------------------------------
-- Classes of characters
-- ---------------------------------------------------------------------------

/-- A class of characters: those in one of the ranges, or those in none. -/
structure CharSet where
  negated : Bool := false
  ranges : List (Char × Char)
  deriving DecidableEq, Repr

namespace CharSet

def has (s : CharSet) (c : Char) : Bool :=
  (s.ranges.any fun (low, high) => low ≤ c && c ≤ high) != s.negated

/-- The characters themselves, as ranges. -/
def each (cs : List Char) : List (Char × Char) := cs.map fun c => (c, c)

def oneOf (cs : List Char) : CharSet := { ranges := each cs }

def noneOf (cs : List Char) : CharSet := { negated := true, ranges := each cs }

theorem any_each (cs : List Char) (c : Char) :
    ((each cs).any fun (low, high) => low ≤ c && c ≤ high) = true ↔ c ∈ cs := by
  simp only [each, List.any_map, List.any_eq_true, Function.comp_apply, Bool.and_eq_true,
    decide_eq_true_eq]
  constructor
  · rintro ⟨d, hd, hle, hge⟩
    exact Char.le_antisymm hle hge ▸ hd
  · exact fun h => ⟨c, h, Char.le_refl c, Char.le_refl c⟩

@[simp] theorem has_oneOf (cs : List Char) (c : Char) : (oneOf cs).has c = true ↔ c ∈ cs := by
  rw [has, oneOf, Bool.bne_false, any_each]

@[simp] theorem has_noneOf (cs : List Char) (c : Char) : (noneOf cs).has c = true ↔ c ∉ cs := by
  rw [has, noneOf, Bool.bne_true, Bool.not_eq_true', ← Bool.not_eq_true, any_each]

end CharSet

-- ---------------------------------------------------------------------------
-- Patterns
-- ---------------------------------------------------------------------------

inductive Pattern
  /-- The empty text. -/
  | empty
  /-- One character of a class. -/
  | set (s : CharSet)
  /-- One behind the other. -/
  | append (p q : Pattern)
  /-- One or the other. -/
  | either (p q : Pattern)
  /-- Any number of times. -/
  | star (p : Pattern)
  deriving DecidableEq, Repr

namespace Pattern

instance : Mul Pattern := ⟨append⟩

instance : Add Pattern := ⟨either⟩

def char (c : Char) : Pattern := set (.oneOf [c])

def oneOf (cs : List Char) : Pattern := set (.oneOf cs)

def noneOf (cs : List Char) : Pattern := set (.noneOf cs)

/-- Once or not at all. -/
def optional (p : Pattern) : Pattern := p + empty

/-- At least once. -/
def plus (p : Pattern) : Pattern := p * star p

/-- The texts that a pattern matches. -/
def language : Pattern → Language Char
  | empty => 1
  | set s => {t | ∃ c, s.has c = true ∧ t = [c]}
  | append p q => p.language * q.language
  | either p q => p.language + q.language
  | star p => p.language∗

def Matches (p : Pattern) (t : Text) : Prop := t ∈ p.language

@[simp] theorem language_empty : empty.language = 1 := rfl

@[simp] theorem language_mul (p q : Pattern) : (p * q).language = p.language * q.language := rfl

@[simp] theorem language_add (p q : Pattern) : (p + q).language = p.language + q.language := rfl

@[simp] theorem language_star (p : Pattern) : (star p).language = p.language∗ := rfl

end Pattern

-- ---------------------------------------------------------------------------
-- The first character
-- ---------------------------------------------------------------------------

section Languages

variable {L M : Language Char} {c d : Char} {t : Text}

theorem nil_mem_mul : [] ∈ L * M ↔ [] ∈ L ∧ [] ∈ M := by
  constructor
  · rintro ⟨a, ha, b, hb, hab⟩
    obtain ⟨rfl, rfl⟩ := List.append_eq_nil_iff.mp hab
    exact ⟨ha, hb⟩
  · exact fun h => Language.append_mem_mul h.1 h.2

theorem nil_not_mem_set {s : CharSet} : [] ∉ (Pattern.set s).language := by
  rintro ⟨c, -, h⟩
  cases h

theorem cons_mem_set {s : CharSet} :
    c :: t ∈ (Pattern.set s).language ↔ s.has c = true ∧ t = [] := by
  constructor
  · rintro ⟨d, hd, h⟩
    obtain ⟨rfl, rfl⟩ := List.cons.inj h
    exact ⟨hd, rfl⟩
  · rintro ⟨hc, rfl⟩
    exact ⟨c, hc, rfl⟩

/-- A class takes the first character and leaves the rest. -/
theorem cons_mem_set_mul {s : CharSet} :
    c :: t ∈ (Pattern.set s).language * L ↔ s.has c = true ∧ t ∈ L := by
  rw [Language.mem_mul]
  constructor
  · rintro ⟨a, ⟨d, hd, rfl⟩, b, hb, h⟩
    obtain ⟨rfl, rfl⟩ := List.cons.inj h
    exact ⟨hd, hb⟩
  · rintro ⟨hc, ht⟩
    exact ⟨[c], ⟨c, hc, rfl⟩, t, ht, rfl⟩

theorem not_nil_mem_set_mul {s : CharSet} : [] ∉ (Pattern.set s).language * L :=
  fun h => nil_not_mem_set (nil_mem_mul.mp h).1

theorem mem_char : t ∈ (Pattern.char d).language ↔ t = [d] := by
  cases t with
  | nil => exact iff_of_false nil_not_mem_set (List.cons_ne_nil d []).symm
  | cons c t =>
    rw [Pattern.char, cons_mem_set, CharSet.has_oneOf, List.mem_singleton, List.cons_eq_cons]

theorem mem_char_mul :
    t ∈ (Pattern.char d).language * L ↔ ∃ r ∈ L, t = d :: r := by
  cases t with
  | nil => simp [Pattern.char, not_nil_mem_set_mul]
  | cons c t =>
    rw [Pattern.char, cons_mem_set_mul, CharSet.has_oneOf, List.mem_singleton]
    simp [and_comm]

theorem cons_mem_char_mul :
    c :: t ∈ (Pattern.char d).language * L ↔ c = d ∧ t ∈ L := by
  simp [mem_char_mul, and_comm]

/-- A repetition is over, or it goes on once more. -/
theorem mem_star_mul : t ∈ L∗ * M ↔ t ∈ M ∨ t ∈ L * (L∗ * M) := by
  conv_lhs => rw [← Language.one_add_self_mul_kstar_eq_kstar, add_mul, one_mul, mul_assoc]
  exact Language.mem_add M _ t

theorem mem_star : t ∈ L∗ ↔ t = [] ∨ t ∈ L * L∗ := by
  have h : t ∈ L∗ * 1 ↔ t ∈ (1 : Language Char) ∨ t ∈ L * (L∗ * 1) := mem_star_mul
  rwa [mul_one, Language.mem_one] at h

/-- A repeated class matches the texts that have only its characters. -/
theorem mem_star_set {s : CharSet} :
    t ∈ (Pattern.set s).language∗ ↔ ∀ c ∈ t, s.has c = true := by
  induction t with
  | nil => simpa using Language.nil_mem_kstar _
  | cons c t ih =>
    rw [mem_star, cons_mem_set_mul, ih, List.forall_mem_cons]
    exact or_iff_right (List.cons_ne_nil c t)

end Languages

end FenceFacts
