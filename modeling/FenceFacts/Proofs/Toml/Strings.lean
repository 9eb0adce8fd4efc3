import FenceFacts.Toml.Quoted
import Mathlib.Tactic.Common

/-!
# FenceFacts — TOML strings read back

A string is read as the text that was written, whichever quotes it stands
between.  What the reader has to remember on the way is how many quotes stand
right before the next character.  A string has at most as many quotes in a row
as it may hold, so none of them closes it, and the closing ones count from
where the text ends.

Between single quotes a text is written as it is, if it can be.  Between double
quotes it is written with escapes, and then no character is left that could do
harm.

## Results

* `readFrom_escapeAll` — texts with escapes.
* `readFrom_raw`       — texts as they are.
* `read_writeToml`     — a text between the quotes that are chosen for it.
-/

namespace FenceFacts

namespace TomlQuotes

variable {q : TomlQuotes} {c : Char} {cs t rest : Text} {run : Nat}

-- ---------------------------------------------------------------------------
-- Steps of the reader
-- ---------------------------------------------------------------------------

/-- What the next character does when nothing is open. -/
theorem readFrom_plain_cons :
    q.readFrom .plain (c :: cs) =
      if c = q.quote then if q.long then q.readFrom (.quotes 1) cs else some ([], cs)
      else if c = '\\' && q.hasEscapes then q.readFrom .escape cs
      else if isTomlChar c || (c = '\n' || (c = '\r' && cs.head? = some '\n')) && q.long then
        (q.readFrom .plain cs).map fun r => (c :: r.1, r.2)
      else none := rfl

theorem readFrom_quotes_nil :
    q.readFrom (.quotes run) [] =
      if 3 ≤ run then some (List.replicate (run - 3) q.quote, []) else none := rfl

/-- Behind quotes that turn out not to close the string, nothing is open. -/
theorem readFrom_quotes_cons :
    q.readFrom (.quotes run) (c :: cs) =
      if c = q.quote then if run < 5 then q.readFrom (.quotes (run + 1)) cs else none
      else if run < 3 then
        (q.readFrom .plain (c :: cs)).map fun r => (List.replicate run q.quote ++ r.1, r.2)
      else some (List.replicate (run - 3) q.quote, c :: cs) := rfl

theorem readFrom_escape_cons {d : Char} (h : tomlEscapes.lookup c = some d) :
    q.readFrom .escape (c :: cs) = (q.readFrom .plain cs).map fun r => (d :: r.1, r.2) := by
  conv_lhs => whnf
  rw [h]

theorem readFrom_number_cons {d missing value : Nat}
    (h : TomlScalar.digitBelow? 16 c = some d) :
    q.readFrom (.number missing value) (c :: cs) =
      if 1 < missing then q.readFrom (.number (missing - 1) (value * 16 + d)) cs
      else (charOfNumber? (value * 16 + d)).bind fun d =>
        (q.readFrom .plain cs).map fun r => (d :: r.1, r.2) := by
  conv_lhs => whnf
  rw [h]

theorem lt_three_of_le_quotesWithin (hrun : run ≤ q.quotesWithin) : run < 3 := by
  unfold quotesWithin at hrun
  split at hrun <;> omega

/-- What is open behind so many quotes in a row. -/
def stateAfter (run : Nat) : State := if run = 0 then .plain else .quotes run

/-- Quotes that are followed by something else belong to the string. -/
theorem readFrom_stateAfter_of_ne (hc : c ≠ q.quote) (hrun : run < 3)
    (h : q.readFrom .plain (c :: cs) = some (t, rest)) :
    q.readFrom (stateAfter run) (c :: cs) = some (List.replicate run q.quote ++ t, rest) := by
  unfold stateAfter
  split
  · next hzero =>
    rw [h, hzero]
    rfl
  · rw [readFrom_quotes_cons, if_neg hc, if_pos hrun, h]
    rfl

theorem readFrom_plain (hc : c ≠ q.quote) (hescape : q.hasEscapes = true → c ≠ '\\')
    (hplain : isTomlChar c = true ∨ c = '\n' ∧ q.long = true)
    (h : q.readFrom .plain cs = some (t, rest)) :
    q.readFrom .plain (c :: cs) = some (c :: t, rest) := by
  have hnone : ¬ (decide (c = '\\') && q.hasEscapes) = true := by
    simp only [Bool.and_eq_true, decide_eq_true_eq, not_and]
    exact fun hbackslash hescapes => hescape hescapes hbackslash
  have hallowed : (isTomlChar c || (decide (c = '\n') ||
      decide (c = '\r') && decide (cs.head? = some '\n')) && q.long) = true := by
    rcases hplain with hplain | ⟨rfl, hlong⟩
    · simp [hplain]
    · simp [hlong]
  rw [readFrom_plain_cons, if_neg hc, if_neg hnone, if_pos hallowed, h]
  rfl

theorem readFrom_quote (hrun : run < q.quotesWithin) :
    q.readFrom (stateAfter run) (q.quote :: cs) = q.readFrom (stateAfter (run + 1)) cs := by
  unfold quotesWithin at hrun
  split at hrun
  · next hlong =>
    rw [stateAfter, stateAfter, if_neg (Nat.succ_ne_zero run)]
    split
    · next hzero => rw [readFrom_plain_cons, if_pos rfl, if_pos hlong, hzero]
    · rw [readFrom_quotes_cons, if_pos rfl, if_pos (by omega)]
  · exact absurd hrun (Nat.not_lt_zero run)

/-- The closing quotes close the string, behind **no more quotes than it may
hold**. -/
theorem readFrom_mark (hrun : run ≤ q.quotesWithin) (hrest : rest.head? ≠ some q.quote) :
    q.readFrom (stateAfter run) (q.mark ++ rest) = some (List.replicate run q.quote, rest) := by
  unfold quotesWithin at hrun
  unfold mark
  split at hrun
  · next hlong =>
    have hthree : q.readFrom (stateAfter run) (q.quote :: q.quote :: q.quote :: rest) =
        q.readFrom (.quotes (run + 3)) rest := by
      unfold stateAfter
      split
      · next hzero =>
        rw [readFrom_plain_cons, if_pos rfl, if_pos hlong, readFrom_quotes_cons, if_pos rfl,
          if_pos (by omega), readFrom_quotes_cons, if_pos rfl, if_pos (by omega), hzero]
      · rw [readFrom_quotes_cons, if_pos rfl, if_pos (by omega), readFrom_quotes_cons, if_pos rfl,
          if_pos (by omega), readFrom_quotes_cons, if_pos rfl, if_pos (by omega)]
    rw [if_pos hlong]
    refine hthree.trans ?_
    cases rest with
    | nil => rw [readFrom_quotes_nil, if_pos (Nat.le_add_left 3 run), Nat.add_sub_cancel]
    | cons c cs =>
      have hc : c ≠ q.quote := fun heq => hrest (congrArg some heq)
      rw [readFrom_quotes_cons, if_neg hc, if_neg (by omega), Nat.add_sub_cancel]
  · next hshort =>
    obtain rfl := Nat.le_zero.mp hrun
    show q.readFrom .plain (List.replicate (if q.long then 3 else 1) q.quote ++ rest) = _
    rw [if_neg hshort]
    show q.readFrom .plain (q.quote :: rest) = _
    rw [readFrom_plain_cons, if_pos rfl, if_neg hshort]
    rfl

-- ---------------------------------------------------------------------------
-- Escapes
-- ---------------------------------------------------------------------------

/-- Strings are read with the escapes that they are written with. -/
theorem lookup_tomlEscapes :
    ∀ e ∈ tomlWrittenEscapes, tomlEscapes.lookup e.1 = some e.2 := by decide

theorem backslash_ne_quote (hescapes : q.hasEscapes = true) : '\\' ≠ q.quote := by
  rw [hasEscapes, decide_eq_true_eq] at hescapes
  rw [hescapes]
  decide

theorem readFrom_escape (hescapes : q.hasEscapes = true) {letter : Char}
    (hletter : (letter, c) ∈ tomlWrittenEscapes) (h : q.readFrom .plain cs = some (t, rest)) :
    q.readFrom .plain ('\\' :: letter :: cs) = some (c :: t, rest) := by
  rw [readFrom_plain_cons, if_neg (backslash_ne_quote hescapes), if_pos (by simp [hescapes]),
    readFrom_escape_cons (lookup_tomlEscapes _ hletter), h]
  rfl

theorem digitBelow?_hexDigit : ∀ n < 16, TomlScalar.digitBelow? 16 (hexDigit n) = some n := by
  decide

theorem readFrom_digit {digit : Char} {d missing value : Nat}
    (hdigit : TomlScalar.digitBelow? 16 digit = some d) (hmissing : 1 < missing) :
    q.readFrom (.number missing value) (digit :: cs) =
      q.readFrom (.number (missing - 1) (value * 16 + d)) cs := by
  rw [readFrom_number_cons hdigit, if_pos hmissing]

theorem readFrom_lastDigit {digit : Char} {d value : Nat}
    (hdigit : TomlScalar.digitBelow? 16 digit = some d)
    (hchar : charOfNumber? (value * 16 + d) = some c) (h : q.readFrom .plain cs = some (t, rest)) :
    q.readFrom (.number 1 value) (digit :: cs) = some (c :: t, rest) := by
  rw [readFrom_number_cons hdigit, if_neg (Nat.lt_irrefl 1), hchar, Option.bind_some, h]
  rfl

theorem charOfNumber?_toNat (c : Char) : charOfNumber? c.toNat = some c := by
  have hvalid : c.toNat.isValidChar := c.valid
  rw [charOfNumber?, if_pos hvalid, Char.ofNat_toNat]

/-- A character of ASCII is read by **its number**. -/
theorem readFrom_number (hescapes : q.hasEscapes = true) (hc : c.toNat < 0x80)
    (h : q.readFrom .plain cs = some (t, rest)) :
    q.readFrom .plain ('\\' :: 'u' :: '0' :: '0' :: hexDigit (c.toNat / 16) ::
      hexDigit (c.toNat % 16) :: cs) = some (c :: t, rest) := by
  have hfirst := digitBelow?_hexDigit (c.toNat / 16) (by omega)
  have hsecond := digitBelow?_hexDigit (c.toNat % 16) (Nat.mod_lt _ (by decide))
  have hzero : TomlScalar.digitBelow? 16 '0' = some 0 := by decide
  have hfour (digits : Text) :
      q.readFrom .plain ('\\' :: 'u' :: digits) = q.readFrom (.number 4 0) digits := by
    rw [readFrom_plain_cons, if_neg (backslash_ne_quote hescapes), if_pos (by simp [hescapes])]
    rfl
  rw [hfour, readFrom_digit hzero (by decide), readFrom_digit hzero (by decide),
    readFrom_digit hfirst (by decide)]
  refine readFrom_lastDigit hsecond ?_ h
  rw [← charOfNumber?_toNat]
  congr 1
  omega

-- ---------------------------------------------------------------------------
-- Texts
-- ---------------------------------------------------------------------------

theorem toNat_lt_of_not_isTomlChar (hc : ¬ isTomlChar c = true) : c.toNat < 0x80 := by
  by_cases hlow : ' ' ≤ c
  · have hdelete : c = '\x7f' := by
      simp [isTomlChar, hlow] at hc
      exact hc.2
    rw [hdelete]
    decide
  · have hlt : c.toNat < ' '.toNat := UInt32.lt_iff_toNat_lt.mp (Char.not_le.mp hlow)
    exact Nat.lt_trans hlt (by decide)

/-- Between double quotes a character is written as a quote that may stand in
the row, or as something that begins with no quote and is read as it. -/
theorem escaped_cases (hescapes : q.hasEscapes = true) (run : Nat) (c : Char) :
    (c = q.quote ∧ run < q.quotesWithin ∧ q.escaped run c = ['"']) ∨
      ∃ d ds, q.escaped run c = d :: ds ∧ d ≠ q.quote ∧
        ∀ {cs t rest : Text}, q.readFrom .plain cs = some (t, rest) →
          q.readFrom .plain (d :: ds ++ cs) = some (c :: t, rest) := by
  have hquote : q.quote = '"' := of_decide_eq_true hescapes
  unfold escaped
  split
  · -- a line feed in a long string
    next hfeed =>
    rw [Bool.and_eq_true, decide_eq_true_eq] at hfeed
    obtain ⟨rfl, hlong⟩ := hfeed
    have hne : '\n' ≠ q.quote := by
      rw [hquote]
      decide
    exact Or.inr ⟨_, _, rfl, hne, readFrom_plain hne (fun _ => by decide) (Or.inr ⟨rfl, hlong⟩)⟩
  split
  · next hrow =>
    rw [Bool.and_eq_true, decide_eq_true_eq, decide_eq_true_eq] at hrow
    obtain ⟨rfl, hrun⟩ := hrow
    exact Or.inl ⟨hquote.symm, hrun, rfl⟩
  split
  · -- a letter for the character
    next letter c' hfind =>
    have heq := List.find?_some hfind
    obtain rfl : c' = c := of_decide_eq_true heq
    exact Or.inr ⟨_, _, rfl, backslash_ne_quote hescapes,
      readFrom_escape hescapes (List.mem_of_find?_eq_some hfind)⟩
  · next hfind =>
    have hletter (e : Char × Char) (he : e ∈ tomlWrittenEscapes) : c ≠ e.2 := by
      rintro rfl
      exact absurd (decide_eq_true rfl) (List.find?_eq_none.mp hfind e he)
    have hne : c ≠ q.quote := by
      rw [hquote]
      exact hletter ('"', '"') (by decide)
    split
    · next hplain =>
      exact Or.inr ⟨_, _, rfl, hne,
        readFrom_plain hne (fun _ => hletter ('\\', '\\') (by decide)) (Or.inl hplain)⟩
    · -- a number for the character
      next hplain =>
      exact Or.inr ⟨_, _, rfl, backslash_ne_quote hescapes,
        readFrom_number hescapes (toNat_lt_of_not_isTomlChar hplain)⟩

theorem isTomlChar_hexDigit : ∀ n < 16, isTomlChar (hexDigit n) = true := by decide

/-- No control character but the tab is written, and a line feed only for itself. -/
theorem plain_of_mem_escaped {d : Char} (hd : d ∈ q.escaped run c) :
    isTomlChar d = true ∨ d = '\n' ∧ c = '\n' := by
  unfold escaped at hd
  split at hd
  · next hfeed =>
    rw [Bool.and_eq_true, decide_eq_true_eq] at hfeed
    obtain rfl := List.mem_singleton.mp hd
    exact Or.inr ⟨hfeed.1, hfeed.1⟩
  split at hd
  · next hrow =>
    rw [Bool.and_eq_true, decide_eq_true_eq] at hrow
    obtain rfl := List.mem_singleton.mp hd
    rw [hrow.1]
    exact Or.inl (by decide)
  split at hd
  · next letter c' hfind =>
    have hletters : ∀ e ∈ tomlWrittenEscapes, isTomlChar e.1 = true := by decide
    rcases List.mem_cons.mp hd with rfl | hd
    · exact Or.inl (by decide)
    · obtain rfl := List.mem_singleton.mp hd
      exact Or.inl (hletters _ (List.mem_of_find?_eq_some hfind))
  split at hd
  · next hplain =>
    obtain rfl := List.mem_singleton.mp hd
    exact Or.inl hplain
  · next hplain =>
    have hlt := toNat_lt_of_not_isTomlChar hplain
    have hhigh := isTomlChar_hexDigit (c.toNat / 16) (by omega)
    have hlow := isTomlChar_hexDigit (c.toNat % 16) (Nat.mod_lt _ (by decide))
    have hall : ['\\', 'u', '0', '0', hexDigit (c.toNat / 16), hexDigit (c.toNat % 16)].all
        isTomlChar = true := by
      simp only [List.all_cons, List.all_nil, hhigh, hlow]
      decide
    exact Or.inl (List.all_eq_true.mp hall d hd)

theorem plain_of_mem_escapeAll {d : Char} (hd : d ∈ q.escapeAll run t) :
    isTomlChar d = true ∨ d = '\n' ∧ '\n' ∈ t := by
  induction t generalizing run with
  | nil => exact absurd hd List.not_mem_nil
  | cons c t ih =>
    rw [escapeAll] at hd
    rcases List.mem_append.mp hd with hd | hd
    · exact (plain_of_mem_escaped hd).imp_right fun ⟨hfeed, hc⟩ => ⟨hfeed, hc ▸ List.mem_cons_self⟩
    · exact (ih hd).imp_right fun ⟨hfeed, ht⟩ => ⟨hfeed, List.mem_cons_of_mem c ht⟩

/-- A text is read as it was written **with escapes**. -/
theorem readFrom_escapeAll (hescapes : q.hasEscapes = true) (hrest : rest.head? ≠ some q.quote)
    (t : Text) (hrun : run ≤ q.quotesWithin) :
    q.readFrom (stateAfter run) (q.escapeAll run t ++ (q.mark ++ rest)) =
      some (List.replicate run q.quote ++ t, rest) := by
  induction t generalizing run with
  | nil =>
    rw [List.append_nil]
    exact readFrom_mark hrun hrest
  | cons c t ih =>
    rw [escapeAll]
    rcases escaped_cases hescapes run c with ⟨rfl, hlt, hwritten⟩ | ⟨d, ds, hwritten, hd, hread⟩
    · rw [hwritten, if_pos rfl]
      have hquote : q.quote = '"' := of_decide_eq_true hescapes
      have hnext := ih (show run + 1 ≤ q.quotesWithin from hlt)
      rw [← readFrom_quote hlt, List.replicate_succ', List.append_assoc] at hnext
      rw [← hquote]
      exact hnext
    · have hne : ¬ d :: ds = ['"'] := by
        rintro heq
        obtain ⟨rfl, -⟩ := List.cons.inj heq
        exact hd (of_decide_eq_true hescapes).symm
      have hnext := ih (Nat.zero_le q.quotesWithin)
      rw [hwritten, if_neg hne, List.append_assoc]
      exact readFrom_stateAfter_of_ne hd (lt_three_of_le_quotesWithin hrun) (hread hnext)

theorem le_longestRun (c : Char) (run : Nat) (t : Text) : run ≤ longestRun c run t := by
  induction t generalizing run with
  | nil => exact Nat.le_refl run
  | cons d t ih =>
    rw [longestRun]
    split
    · exact Nat.le_of_succ_le (ih (run + 1))
    · exact Nat.le_max_left _ _

/-- A text is read **as it is**, if the string can hold it. -/
theorem readFrom_raw (hescapes : q.hasEscapes = false) (hrest : rest.head? ≠ some q.quote)
    (hplain : ∀ c ∈ t, isTomlChar c = true ∨ c = '\n' ∧ q.long = true)
    (hrun : longestRun q.quote run t ≤ q.quotesWithin) :
    q.readFrom (stateAfter run) (t ++ (q.mark ++ rest)) =
      some (List.replicate run q.quote ++ t, rest) := by
  induction t generalizing run with
  | nil =>
    rw [List.append_nil]
    exact readFrom_mark hrun hrest
  | cons c t ih =>
    obtain ⟨hc, ht⟩ := List.forall_mem_cons.mp hplain
    rw [longestRun] at hrun
    split at hrun
    · next heq =>
      obtain rfl := heq
      have hlt : run < q.quotesWithin := Nat.lt_of_lt_of_le (le_longestRun _ _ _) hrun
      have hnext := ih ht hrun
      rw [← readFrom_quote hlt, List.replicate_succ', List.append_assoc] at hnext
      exact hnext
    · next hne =>
      obtain ⟨hrow, hlater⟩ := Nat.max_le.mp hrun
      refine readFrom_stateAfter_of_ne hne (lt_three_of_le_quotesWithin hrow)
        (readFrom_plain hne ?_ hc (ih ht hlater))
      rw [hescapes]
      exact nofun

-- ---------------------------------------------------------------------------
-- Quotes
-- ---------------------------------------------------------------------------

/-- What stands between the quotes, without the line end in front. -/
def inside (q : TomlQuotes) (t : Text) : Text := if q.hasEscapes then q.escapeAll 0 t else t

/-- A string without escapes holds plain characters, and line ends if it is
long. -/
theorem plain_of_holds (h : q.holds t = true) (hc : c ∈ t) :
    isTomlChar c = true ∨ c = '\n' ∧ q.long = true := by
  simp only [holds, hasControl, Bool.and_eq_true, Bool.not_eq_true', List.any_eq_false] at h
  obtain ⟨⟨⟨hcontrol, -⟩, hfeed⟩, -⟩ := h
  have hplain : isTomlChar c = true ∨ c = '\n' := by
    simpa [or_iff_not_imp_left] using hcontrol c hc
  refine hplain.imp_right fun heq => ⟨heq, ?_⟩
  rw [heq] at hc
  simpa [hc] using hfeed

theorem longestRun_le_of_holds (h : q.holds t = true) :
    longestRun q.quote 0 t ≤ q.quotesWithin := by
  simp only [holds, Bool.and_eq_true, decide_eq_true_eq] at h
  exact h.2

theorem readFrom_inside (h : q.hasEscapes = true ∨ q.holds t = true)
    (hrest : rest.head? ≠ some q.quote) :
    q.readFrom .plain (q.inside t ++ (q.mark ++ rest)) = some (t, rest) := by
  unfold inside
  split
  · next hescapes => exact readFrom_escapeAll hescapes hrest t (Nat.zero_le _)
  · next hescapes =>
    have hholds := h.resolve_left hescapes
    exact readFrom_raw (Bool.eq_false_iff.mpr hescapes) hrest (fun c hc => plain_of_holds hholds hc)
      (longestRun_le_of_holds hholds)

/-- In a string that is not long, no quote stands right behind the opening one. -/
theorem head?_inside_ne_quote (h : q.hasEscapes = true ∨ q.holds t = true)
    (hshort : ¬ q.long = true) : (q.inside t).head? ≠ some q.quote := by
  have hnone : q.quotesWithin = 0 := if_neg hshort
  cases t with
  | nil =>
    unfold inside
    split <;> exact nofun
  | cons c t =>
    unfold inside
    split
    · next hescapes =>
      rcases escaped_cases hescapes 0 c with ⟨-, hlt, -⟩ | ⟨d, ds, hwritten, hd, -⟩
      · omega
      · rw [escapeAll, hwritten]
        exact fun heq => hd (Option.some.inj heq)
    · next hescapes =>
      have hrun := longestRun_le_of_holds (h.resolve_left hescapes)
      rw [longestRun] at hrun
      rintro heq
      rw [if_pos (Option.some.inj heq)] at hrun
      have := le_longestRun q.quote (0 + 1) t
      omega

/-- The quotes that are chosen for a text hold it, or have escapes. -/
theorem hasEscapes_or_holds_choose (t : Text) :
    (choose t).hasEscapes = true ∨ (choose t).holds t = true := by
  unfold choose
  cases hfind : preferred.find? (·.holds t) with
  | none => exact Or.inl rfl
  | some q =>
    have hholds := List.find?_some hfind
    exact Or.inr hholds

/-- The quotes are double or single ones. -/
def IsQuotes (q : TomlQuotes) : Prop := q.quote = '"' ∨ q.quote = '\''

theorem isQuotes_choose (t : Text) : (choose t).IsQuotes := by
  have hall : ∀ q ∈ preferred, q.quote = '"' ∨ q.quote = '\'' := by decide
  unfold choose
  cases hfind : preferred.find? (·.holds t) with
  | none => exact Or.inl rfl
  | some q => exact hall q (List.mem_of_find?_eq_some hfind)

theorem IsQuotes.isTomlChar (h : q.IsQuotes) : isTomlChar q.quote = true := by
  rcases h with h | h <;> rw [h] <;> decide

/-- Long quotes are opened by three of them. -/
theorem opening?_long (h : q.IsQuotes) (hlong : q.long = true) (y : Text) :
    opening? (q.mark ++ y) = some (q, y) := by
  obtain ⟨quote, long⟩ := q
  obtain rfl : long = true := hlong
  rcases h with h | h
  all_goals
    obtain rfl := h
    rfl

/-- Other quotes are opened by one, which no two more follow. -/
theorem opening?_short (h : q.IsQuotes) (hshort : ¬ q.long = true) {y : Text}
    (hy : ∀ r, y ≠ q.quote :: q.quote :: r) : opening? (q.mark ++ y) = some (q, y) := by
  obtain ⟨quote, long⟩ := q
  obtain rfl : long = false := Bool.eq_false_iff.mpr hshort
  rcases h with h | h <;> obtain rfl := h
  · show opening? ('"' :: y) = _
    unfold opening?
    split
    · next heq => exact absurd (List.cons.inj heq).2 (hy _)
    all_goals simp_all
  · show opening? ('\'' :: y) = _
    unfold opening?
    split
    case h_3 heq => exact absurd (List.cons.inj heq).2 (hy _)
    all_goals simp_all

theorem withoutFirstBreak_of_plain {c : Char} (hc : isTomlChar c = true) (cs : Text) :
    withoutFirstBreak (c :: cs) = c :: cs := by
  unfold withoutFirstBreak
  split
  · next heq =>
    obtain ⟨rfl, -⟩ := List.cons.inj heq
    exact absurd hc (by decide)
  · next heq =>
    obtain ⟨rfl, -⟩ := List.cons.inj heq
    exact absurd hc (by decide)
  · rfl

/-- The line end in front is the only thing that is skipped. -/
theorem withoutFirstBreak_eq (hq : q.IsQuotes) (h : q.hasEscapes = true ∨ q.holds t = true)
    (rest : Text) :
    withoutFirstBreak ((if t.contains '\n' then ['\n'] else []) ++
      (q.inside t ++ (q.mark ++ rest))) = q.inside t ++ (q.mark ++ rest) := by
  split
  · rfl
  · next hfeed =>
    have hnone : '\n' ∉ t := by simpa using hfeed
    have hplain (d : Char) (hd : d ∈ q.inside t ++ q.mark) : isTomlChar d = true := by
      rcases List.mem_append.mp hd with hd | hd
      · unfold inside at hd
        split at hd
        · exact (plain_of_mem_escapeAll hd).resolve_right fun hmem => hnone hmem.2
        · next hescapes =>
          refine (plain_of_holds (h.resolve_left hescapes) hd).resolve_right fun hmem => ?_
          exact hnone (hmem.1 ▸ hd)
      · rw [List.eq_of_mem_replicate hd]
        exact hq.isTomlChar
    have hne : q.inside t ++ q.mark ≠ [] := by
      have hpos : q.mark ≠ [] := by
        unfold mark
        split <;> exact List.cons_ne_nil _ _
      exact List.append_ne_nil_of_right_ne_nil _ hpos
    obtain ⟨c, cs, hcons⟩ := List.exists_cons_of_ne_nil hne
    rw [hcons] at hplain
    rw [List.nil_append, ← List.append_assoc, hcons]
    exact withoutFirstBreak_of_plain (hplain c List.mem_cons_self) (cs ++ rest)

end TomlQuotes

open TomlQuotes

/-- A string is read as **the text that was written**, if no quote comes next. -/
theorem read_writeToml (t rest : Text) (hrest : ∀ c ∈ rest.head?, c ≠ '"' ∧ c ≠ '\'') :
    ∃ q body, opening? (t.writeToml ++ rest) = some (q, body) ∧
      q.read? body = some (t, rest) := by
  have hq := isQuotes_choose t
  have hreads := hasEscapes_or_holds_choose t
  rw [Text.writeToml]
  generalize choose t = q at hq hreads ⊢
  have hnext : rest.head? ≠ some q.quote := by
    intro heq
    obtain ⟨hdouble, hsingle⟩ := hrest _ heq
    exact hq.elim hdouble hsingle
  have hinside := readFrom_inside hreads hnext
  have hwritten : q.write t ++ rest =
      q.mark ++ ((if q.long && t.contains '\n' then ['\n'] else []) ++
        (q.inside t ++ (q.mark ++ rest))) := by
    rw [write]
    simp only [List.append_assoc]
    rfl
  rw [hwritten]
  by_cases hlong : q.long = true
  · refine ⟨q, _, opening?_long hq hlong _, ?_⟩
    rw [read?, if_pos hlong, hlong, Bool.true_and, withoutFirstBreak_eq hq hreads]
    exact hinside
  · have hshort : q.long = false := Bool.eq_false_iff.mpr hlong
    rw [hshort, Bool.false_and, if_neg Bool.false_ne_true, List.nil_append]
    refine ⟨q, _, opening?_short hq hlong fun r hr => ?_, ?_⟩
    · -- no quote stands in front, and the closing one stands alone
      have hhead := head?_inside_ne_quote hreads hlong
      rw [mark, if_neg hlong] at hr
      cases hbetween : q.inside t with
      | nil =>
        rw [hbetween] at hr
        obtain ⟨-, hclosing⟩ := List.cons.inj hr
        exact hnext (congrArg List.head? hclosing)
      | cons c cs =>
        rw [hbetween] at hr hhead
        obtain ⟨rfl, -⟩ := List.cons.inj hr
        exact hhead rfl
    · rw [read?, if_neg hlong]
      exact hinside

end FenceFacts
