import FenceFacts.Proofs.Toml.Strings
import FenceFacts.Toml.Reader
import Mathlib.Data.List.TakeWhile

/-!
# FenceFacts — TOML values read back

A value behind the sign of its field is read up to the end of the line.  What
is neither quoted nor bracketed ends there as well: a number in decimal digits
is the number, and a word of letters the truth value that it names.

## Results

* `TomlScalar.value?_toDigits` — the digits of a number.
* `readFrom_word`       — whatever stands without quotes.
* `readFrom_writeToml`  — strings.
-/

namespace FenceFacts

-- ---------------------------------------------------------------------------
-- Digits
-- ---------------------------------------------------------------------------

/-- No number but zero begins with a zero. -/
theorem head?_toDigits_ne_zero {n : Nat} (h : 0 < n) :
    (Nat.toDigits 10 n).head? ≠ some '0' := by
  induction n using Nat.strongRecOn with
  | ind n ih =>
    by_cases hsmall : n < 10
    · have hdigit : ∀ d < 10, 0 < d → Nat.digitChar d ≠ '0' := by decide
      rw [Nat.toDigits_of_lt_base hsmall]
      exact fun heq => hdigit n hsmall h (Option.some.inj heq)
    · obtain ⟨c, cs, hcons⟩ :=
        List.exists_cons_of_ne_nil (Nat.toDigits_ne_nil (n := n / 10) (b := 10))
      have hrest := ih (n / 10) (by omega) (by omega)
      rw [hcons] at hrest
      rw [Nat.toDigits_of_base_le (by decide) (by omega), hcons]
      exact hrest

namespace TomlScalar

variable {t : Text}

theorem digitBelow?_of_isDigit {c : Char} (hc : c.isDigit = true) :
    digitBelow? 10 c = some (c.toNat - '0'.toNat) := by
  rw [Char.isDigit, Bool.and_eq_true, decide_eq_true_eq, decide_eq_true_eq] at hc
  have hdigit : digit? c = some (c.toNat - '0'.toNat) := if_pos hc
  have hle : c.toNat ≤ 57 := UInt32.le_iff_toNat_le.mp hc.2
  have hlt : c.toNat - '0'.toNat < 10 := by
    show c.toNat - 48 < 10
    omega
  rw [digitBelow?, hdigit, Option.filter_some, if_pos (decide_eq_true hlt)]

theorem mapM_digitBelow? (ht : ∀ c ∈ t, c.isDigit = true) :
    t.mapM (digitBelow? 10) = some (t.map fun c => c.toNat - '0'.toNat) := by
  induction t with
  | nil => rfl
  | cons c t ih =>
    obtain ⟨hc, ht⟩ := List.forall_mem_cons.mp ht
    rw [List.mapM_cons, digitBelow?_of_isDigit hc, ih ht]
    rfl

theorem ofDigits?_of_isDigit (hne : t ≠ []) (ht : ∀ c ∈ t, c.isDigit = true) :
    ofDigits? 10 t = some (Nat.ofDigitChars 10 t 0) := by
  have hsome : (t.map fun c => c.toNat - '0'.toNat).isEmpty = false := by
    simpa using hne
  have hfold (n : Nat) (t : Text) :
      (t.map fun c => c.toNat - '0'.toNat).foldl (fun n d => n * 10 + d) n =
        Nat.ofDigitChars 10 t n := by
    rw [List.foldl_map, Nat.ofDigitChars_eq_foldl]
    simp only [Nat.mul_comm]
  rw [ofDigits?, mapM_digitBelow? ht]
  show (if (t.map fun c => c.toNat - '0'.toNat).isEmpty then _ else _) = _
  rw [hsome, if_neg Bool.false_ne_true, ← hfold]
  rfl

theorem unsigned_of_isDigit {c : Char} (hc : c.isDigit = true) (cs : Text) :
    unsigned (c :: cs) = (false, c :: cs) := by
  unfold unsigned
  split
  · next heq =>
    obtain ⟨rfl, -⟩ := List.cons.inj heq
    cases hc
  · next heq =>
    obtain ⟨rfl, -⟩ := List.cons.inj heq
    cases hc
  · rfl

theorem integer_of_isDigit (hne : t ≠ []) (ht : ∀ c ∈ t, c.isDigit = true)
    (hbound : (Nat.ofDigitChars 10 t 0 : Int) < integerBound) :
    integer 10 t = .integer (Nat.ofDigitChars 10 t 0) := by
  have hplain : withoutUnderscores t = t := by
    refine List.filter_eq_self.mpr fun c hc => ?_
    rw [decide_eq_true_eq]
    rintro rfl
    cases ht _ hc
  have hsigned : signed? 10 t = some (Nat.ofDigitChars 10 t 0 : Int) := by
    obtain ⟨c, cs, rfl⟩ := List.exists_cons_of_ne_nil hne
    have hunsigned := unsigned_of_isDigit (ht c List.mem_cons_self) cs
    simp [signed?, hunsigned, ofDigits?_of_isDigit hne ht]
  have hleast : leastInteger ≤ (Nat.ofDigitChars 10 t 0 : Int) := by
    have hnegative : leastInteger ≤ 0 := by decide
    omega
  rw [integer, hplain, hsigned]
  exact if_pos ⟨hleast, hbound⟩

/-- A number is read from **its digits**. -/
theorem value?_toDigits {n : Nat} (hn : (n : Int) < integerBound) :
    value? (Nat.toDigits 10 n) = some (.integer n) := by
  have hdigits : ∀ c ∈ Nat.toDigits 10 n, c.isDigit = true := fun c hc =>
    Nat.isDigit_of_mem_toDigits (by decide) (by decide) hc
  have hinteger : integer 10 (Nat.toDigits 10 n) = .integer n := by
    have h := integer_of_isDigit Nat.toDigits_ne_nil hdigits
    rw [Nat.ofDigitChars_ten_toDigits] at h
    exact h hn
  by_cases hzero : n = 0
  · rw [hzero, Nat.toDigits_zero] at hinteger ⊢
    exact congrArg some hinteger
  · have hhead := head?_toDigits_ne_zero (Nat.pos_of_ne_zero hzero)
    obtain ⟨c, cs, hcons⟩ := List.exists_cons_of_ne_nil (Nat.toDigits_ne_nil (n := n) (b := 10))
    rw [hcons] at hdigits hhead hinteger ⊢
    have hc := hdigits c List.mem_cons_self
    have hne : c ≠ '0' := fun heq => hhead (congrArg some heq)
    have hunsigned := unsigned_of_isDigit hc cs
    have hrun : (c :: cs).dropWhile (fun c => (digitBelow? 10 c).isSome) = [] := by
      refine List.dropWhile_eq_nil_iff.mpr fun d hd => ?_
      rw [digitBelow?_of_isDigit (hdigits d hd)]
      rfl
    have hdecimal : decimal? (c :: cs) = some (.integer n) := by
      rw [decimal?, hunsigned]
      dsimp only
      rw [hrun]
      dsimp only [List.head?_nil]
      rw [if_pos (by simp [hne]), hinteger]
    have hwords : ∀ word ∈ floatWords, word.head?.any Char.isDigit = false := by decide
    have hword (word : Text) (hword : word.head?.any Char.isDigit = false) : c :: cs ≠ word := by
      rintro rfl
      rw [List.head?_cons, Option.any_some, hc] at hword
      cases hword
    have hfloat : (c :: cs) ∉ floatWords := fun hmem =>
      hword _ (hwords _ hmem) rfl
    unfold value?
    rw [if_neg (hword _ (by decide)), if_neg (hword _ (by decide)), hunsigned, if_neg hfloat]
    split
    · next heq => exact absurd (List.cons.inj heq).1 hne
    · exact hdecimal

end TomlScalar

-- ---------------------------------------------------------------------------
-- Values
-- ---------------------------------------------------------------------------

/-- The value is read from the text, which goes up to the end of its line. -/
def TomlValue.ReadFrom (v : TomlValue) (written : Text) : Prop :=
  ∀ rest : Text, (TomlReader.value TomlReader.deepest).run (written ++ '\n' :: rest) =
    some (v, '\n' :: rest)

namespace TomlReader

open TomlQuotes

variable {t rest body s word : Text} {q : TomlQuotes} {v : TomlValue} {c : Char} {depth : Nat}

/-- A value that does not begin with a bracket is a leaf. -/
theorem run_value_of_ne (hsquare : t.head? ≠ some '[') (hcurly : t.head? ≠ some '\x7b') :
    (value (depth + 1)).run t = leaf.run t := by
  unfold value
  simp only [StateT.run_bind, StateT.run_get, Option.pure_def, Option.bind_eq_bind,
    Option.bind_some]
  split
  · exact absurd rfl hsquare
  · exact absurd rfl hcurly
  · rfl

theorem exists_of_opening? (h : opening? t = some (q, body)) :
    ∃ y, t = '"' :: y ∨ t = '\'' :: y := by
  unfold opening? at h
  split at h
  · exact ⟨_, Or.inl rfl⟩
  · exact ⟨_, Or.inl rfl⟩
  · exact ⟨_, Or.inr rfl⟩
  · exact ⟨_, Or.inr rfl⟩
  · cases h

theorem opening?_eq_none (hdouble : c ≠ '"') (hsingle : c ≠ '\'') (cs : Text) :
    opening? (c :: cs) = none := by
  cases h : opening? (c :: cs) with
  | none => rfl
  | some r =>
    obtain ⟨y, hy | hy⟩ := exists_of_opening? h
    · exact absurd (List.cons.inj hy).1 hdouble
    · exact absurd (List.cons.inj hy).1 hsingle

theorem run_value_of_opening (h : opening? t = some (q, body))
    (hread : q.read? body = some (s, rest)) :
    (value (depth + 1)).run t = some (.string s, rest) := by
  have hleaf : leaf.run t = some (.string s, rest) := by
    simp [leaf, h, hread]
  rw [run_value_of_ne, hleaf]
  all_goals
    obtain ⟨y, rfl | rfl⟩ := exists_of_opening? h <;> exact nofun

/-- A string is read **from between its quotes**. -/
theorem readFrom_writeToml (t : Text) : (TomlValue.string t).ReadFrom t.writeToml := by
  intro rest
  obtain ⟨q, body, hopening, hread⟩ := read_writeToml t ('\n' :: rest) (by simp)
  exact run_value_of_opening hopening hread

/-- Characters differ if one of them has a property and the other one does not. -/
theorem ne_of_pos_of_neg {p : Char → Bool} {d : Char} (hc : p c = true) (hd : p d = false) :
    c ≠ d := by
  rintro rfl
  rw [hd] at hc
  cases hc

/-- Names and numbers hold no blanks. -/
theorem isTomlBlank_of_isBareChar (hc : isBareChar c = true) : isTomlBlank c = false := by
  have hspace : c ≠ ' ' := ne_of_pos_of_neg hc rfl
  have htab : c ≠ '\t' := ne_of_pos_of_neg hc rfl
  simp [isTomlBlank, hspace, htab]

theorem isBareChar_of_isAlphanum (hc : c.isAlphanum = true) : isBareChar c = true := by
  simp [isBareChar, hc]

theorem isAlphanum_of_mem_toDigits {n : Nat} (hc : c ∈ Nat.toDigits 10 n) :
    c.isAlphanum = true := by
  rw [Char.isAlphanum, Nat.isDigit_of_mem_toDigits (by decide) (by decide) hc, Bool.or_true]

/-- The run of a scalar takes letters and digits, and stops at the end of the line. -/
theorem scalarRun_word (hword : ∀ c ∈ word, c.isAlphanum = true) (previous : Char) (rest : Text) :
    scalarRun previous (word ++ '\n' :: rest) = word := by
  induction word generalizing previous with
  | nil => rfl
  | cons c cs ih =>
    obtain ⟨hc, hcs⟩ := List.forall_mem_cons.mp hword
    have hpoint : c ≠ '.' := ne_of_pos_of_neg hc rfl
    have hquotes : c ≠ '"' ∧ c ≠ '\'' := ⟨ne_of_pos_of_neg hc rfl, ne_of_pos_of_neg hc rfl⟩
    have hends : c ∉ scalarEnds := fun hmem => by
      have hmarks : ∀ d ∈ scalarEnds, d.isAlphanum = false := by simp [scalarEnds]
      exact ne_of_pos_of_neg hc (hmarks c hmem) rfl
    rw [List.cons_append, scalarRun]
    simp [hpoint, hquotes, hends, ih hcs]

/-- What stands without quotes is read **up to the end of the line**. -/
theorem readFrom_word (hne : word ≠ []) (hword : ∀ c ∈ word, c.isAlphanum = true)
    (hvalue : TomlScalar.value? word = some v) : v.ReadFrom word := by
  intro rest
  have hrun : ((scalarRun '.' (word ++ '\n' :: rest)).reverse.dropWhile isTomlBlank).reverse =
      word := by
    rw [scalarRun_word hword, List.dropWhile_eq_self_iff.mpr, List.reverse_reverse]
    intro hpos hblank
    have hlast := hword _ (List.mem_reverse.mp (List.getElem_mem hpos))
    rw [isTomlBlank_of_isBareChar (isBareChar_of_isAlphanum hlast)] at hblank
    cases hblank
  have hscalar : scalar.run (word ++ '\n' :: rest) = some (v, '\n' :: rest) := by
    show (TomlScalar.value? _).map _ = _
    rw [hrun, hvalue]
    simp
  obtain ⟨c, cs, rfl⟩ := List.exists_cons_of_ne_nil hne
  have hc := hword c List.mem_cons_self
  have hleaf : leaf.run (c :: cs ++ '\n' :: rest) = some (v, '\n' :: rest) := by
    have hnone := opening?_eq_none (ne_of_pos_of_neg hc rfl) (ne_of_pos_of_neg hc rfl)
      (cs ++ '\n' :: rest)
    simp [leaf, hnone, ← hscalar]
  rw [deepest, run_value_of_ne, hleaf]
  · exact fun heq => ne_of_pos_of_neg hc rfl (Option.some.inj heq)
  · exact fun heq => ne_of_pos_of_neg hc rfl (Option.some.inj heq)

end TomlReader

end FenceFacts
