import FenceFacts.Proofs.Lexicon.Slash
import FenceFacts.Proofs.Lines

/-!
# FenceFacts — the extent of regular expressions

Behind the `/` that opens it, a regular expression goes on to the first `/` on
the line that closes it.  One that is escaped does not, and neither does one
in a class such as `[/]`.  Both are told from the text before the slash alone:
a character is escaped behind an odd number of backslashes, and a class is
open behind a `[` with no `]` after it, where escaped brackets do not count.

The reader goes through the line once with a flag for each.  The flags are
what the text behind the opening slash says at every character, so the slash
that the reader stops at is the first that closes.

## Results

* `regexTail_reads` — how far the reader goes, and where it stops.
* `regex_extents`   — the regular expressions of a script.
-/

namespace FenceFacts

variable {c : Char} {p rest t : Text} {tail : Tail}

-- ---------------------------------------------------------------------------
-- Escapes and classes
-- ---------------------------------------------------------------------------

/-- The character behind `t` is escaped: an odd number of backslashes is right
before it. -/
def Escapes (t : Text) : Prop := Odd (t.rtakeWhile (· = '\\')).length

/-- Behind `t` a class is open: there is a `[` with no `]` after it, escaped
ones apart. -/
def OpensClass (t : Text) : Prop :=
  ∃ a b, t = a ++ '[' :: b ∧ ¬ Escapes a ∧ ∀ d e, b = d ++ ']' :: e → Escapes (a ++ '[' :: d)

/-- A slash behind `t` closes the expression. -/
def Closes (t : Text) : Prop := ¬ Escapes t ∧ ¬ OpensClass t

theorem not_escapes_nil : ¬ Escapes [] := Nat.not_odd_zero

theorem escapes_concat : Escapes (t ++ [c]) ↔ c = '\\' ∧ ¬ Escapes t := by
  rw [Escapes, List.rtakeWhile_concat]
  split
  · next hc =>
    rw [List.length_append, List.length_singleton, Nat.odd_add_one,
      and_iff_right (of_decide_eq_true hc), Escapes]
  · next hc => exact iff_of_false Nat.not_odd_zero fun h => hc (decide_eq_true h.1)

theorem not_opensClass_nil : ¬ OpensClass [] := by
  rintro ⟨a, b, h, -⟩
  exact List.append_ne_nil_of_right_ne_nil a (List.cons_ne_nil _ b) h.symm

theorem opensClass_concat :
    OpensClass (t ++ [c]) ↔
      (c = '[' ∧ ¬ Escapes t) ∨ (OpensClass t ∧ ¬ (c = ']' ∧ ¬ Escapes t)) := by
  constructor
  · rintro ⟨a, b, hsplit, hopens, hclosed⟩
    rcases List.eq_nil_or_concat' b with rfl | ⟨b, d, rfl⟩
    · obtain ⟨rfl, hc⟩ := List.append_inj' hsplit rfl
      exact Or.inl ⟨List.singleton_inj.mp hc, hopens⟩
    · rw [← List.cons_append, ← List.append_assoc] at hsplit
      obtain ⟨rfl, hd⟩ := List.append_inj' hsplit rfl
      obtain rfl := List.singleton_inj.mp hd
      refine Or.inr ⟨⟨a, b, rfl, hopens, fun d e hb => hclosed d (e ++ [c]) ?_⟩, ?_⟩
      · rw [hb, List.append_assoc, List.cons_append]
      · rintro ⟨rfl, hescapes⟩
        exact hescapes (hclosed b [] rfl)
  · rintro (⟨rfl, hescapes⟩ | ⟨⟨a, b, rfl, hopens, hclosed⟩, hc⟩)
    · exact ⟨t, [], rfl, hescapes, fun d e h =>
        absurd h.symm (List.append_ne_nil_of_right_ne_nil d (List.cons_ne_nil _ e))⟩
    · refine ⟨a, b ++ [c], by rw [List.append_assoc, List.cons_append], hopens, fun d e hb => ?_⟩
      rcases List.eq_nil_or_concat' e with rfl | ⟨e, x, rfl⟩
      · -- the last bracket is the character that has been added
        obtain ⟨rfl, hx⟩ := List.append_inj' hb rfl
        exact not_not.mp fun h => hc ⟨List.singleton_inj.mp hx, h⟩
      · rw [← List.cons_append, ← List.append_assoc] at hb
        exact hclosed d e (List.append_inj' hb rfl).1

-- ---------------------------------------------------------------------------
-- The reader
-- ---------------------------------------------------------------------------

/-- No slash in `t` closes the expression, of which `p` comes before. -/
def StaysOpen (p t : Text) : Prop := ∀ a b, t = a ++ '/' :: b → ¬ Closes (p ++ a)

/-- How the rest of an expression is read, of which `p` comes before. -/
inductive ReadsRegex (p : Text) : Text → Tail → Prop
  /-- Up to the first slash that closes it, and the flags. -/
  | closed (body after : Text) (line : ∀ c ∈ body, ¬ Text.isLineBreak c = true)
    (first : StaysOpen p body) (closes : Closes (p ++ body)) :
    ReadsRegex p (body ++ '/' :: after)
      ⟨true, body ++ '/' :: after.takeWhile isFlag, after.dropWhile isFlag⟩
  /-- Up to the end of the line, if no slash closes it. -/
  | unterminated (body after : Text) (line : ∀ c ∈ body, ¬ Text.isLineBreak c = true)
    (none : StaysOpen p body) (ends : ∀ c ∈ after.head?, Text.isLineBreak c = true) :
    ReadsRegex p (body ++ after) ⟨false, body, after⟩

theorem StaysOpen.cons (h : StaysOpen (p ++ [c]) t) (hc : ¬ (c = '/' ∧ Closes p)) :
    StaysOpen p (c :: t) := by
  intro a b hsplit hcloses
  cases a with
  | nil =>
    rw [List.append_nil] at hcloses
    exact hc ⟨(List.cons.inj hsplit).1, hcloses⟩
  | cons d a =>
    obtain ⟨rfl, hrest⟩ := List.cons.inj hsplit
    rw [← List.singleton_append, ← List.append_assoc] at hcloses
    exact h a b hrest hcloses

/-- **One character** that neither ends the line nor closes the expression. -/
theorem ReadsRegex.cons (h : ReadsRegex (p ++ [c]) rest tail)
    (hline : ¬ Text.isLineBreak c = true) (hc : ¬ (c = '/' ∧ Closes p)) :
    ReadsRegex p (c :: rest) (tail.cons c) := by
  cases h with
  | closed body after hbody hfirst hcloses =>
    rw [List.append_assoc, List.singleton_append] at hcloses
    exact .closed (c :: body) after (List.forall_mem_cons.mpr ⟨hline, hbody⟩) (hfirst.cons hc)
      hcloses
  | unterminated body after hbody hnone hends =>
    exact .unterminated (c :: body) after (List.forall_mem_cons.mpr ⟨hline, hbody⟩)
      (hnone.cons hc) hends

/-- The reader goes on to **the first slash that closes** the expression, or
to the end of the line, if its flags are what the text before says. -/
theorem regexTail_reads {inClass escaped : Bool} (hclass : inClass = true ↔ OpensClass p)
    (hescaped : escaped = true ↔ Escapes p) :
    ReadsRegex p rest (regexTail inClass escaped rest) := by
  fun_induction regexTail inClass escaped rest generalizing p with
  | case1 =>
    exact .unterminated [] [] (List.forall_mem_nil _) (fun a b h => by cases a <;> cases h)
      fun d hd => by cases hd
  | case2 inClass escaped c rest hbreak =>
    refine .unterminated [] (c :: rest) (List.forall_mem_nil _)
      (fun a b h => by cases a <;> cases h) fun d hd => ?_
    obtain rfl := Option.some.inj hd
    exact hbreak
  | case3 inClass c rest hbreak ih =>
    -- an escaped character changes nothing but that the next one is not
    have hescapes : Escapes p := hescaped.mp rfl
    refine (ih ?_ ?_).cons hbreak fun h => h.2.1 hescapes
    · simp [opensClass_concat, hescapes, hclass]
    · simp [escapes_concat, hescapes]
  | case4 inClass escaped rest hplain hbreak ih =>
    rw [hescaped] at hplain
    refine (ih ?_ ?_).cons hbreak fun h => absurd h.1 (by decide)
    · simp [opensClass_concat, hclass]
    · simp [escapes_concat, hplain]
  | case5 inClass escaped rest hplain hbreak _ ih =>
    rw [hescaped] at hplain
    refine (ih ?_ ?_).cons hbreak fun h => absurd h.1 (by decide)
    · simp [opensClass_concat, hplain]
    · simp [escapes_concat]
  | case6 inClass escaped rest hplain hbreak _ _ ih =>
    rw [hescaped] at hplain
    refine (ih ?_ ?_).cons hbreak fun h => absurd h.1 (by decide)
    · simp [opensClass_concat, hplain]
    · simp [escapes_concat]
  | case7 inClass escaped c rest hbreak hplain _ _ _ hslash =>
    rw [hescaped] at hplain
    rw [Bool.and_eq_true, decide_eq_true_eq, Bool.not_eq_true', ← Bool.not_eq_true, hclass]
      at hslash
    obtain ⟨rfl, hopen⟩ := hslash
    refine .closed [] rest (List.forall_mem_nil _) (fun a b h => by cases a <;> cases h) ?_
    rw [List.append_nil]
    exact ⟨hplain, hopen⟩
  | case8 inClass escaped c rest hbreak hplain hbackslash hopen hclose hslash ih =>
    rw [Bool.and_eq_true, decide_eq_true_eq, Bool.not_eq_true', ← Bool.not_eq_true, hclass]
      at hslash
    refine (ih ?_ ?_).cons hbreak fun h => hslash ⟨h.1, h.2.2⟩
    · simp [opensClass_concat, hopen, hclose, hclass]
    · simp [escapes_concat, hbackslash]

-- ---------------------------------------------------------------------------
-- Scripts
-- ---------------------------------------------------------------------------

/-- A lexeme of this kind starts with a slash, which opens no comment. -/
theorem nextLexeme_regex {regexAllowed : Bool} {cs : Text}
    (h : (nextLexeme regexAllowed c cs).kind = .regex ∨
      (nextLexeme regexAllowed c cs).kind = .unterminatedRegex) :
    c = '/' ∧ (∀ rest, cs ≠ '/' :: rest) ∧ nextLexeme regexAllowed c cs =
      .delimited .regex .unterminatedRegex ['/'] (regexTail false false cs) := by
  have hslash : c = '/' := by
    rcases nextLexeme_followsRules regexAllowed c cs with hrules | ⟨-, hslash⟩
    · exact (h.elim hrules.kind_ne.1 hrules.kind_ne.2).elim
    · exact (List.cons_prefix_cons.mp hslash.front).1.symm
  subst hslash
  refine ⟨rfl, ?_⟩
  rcases nextLexeme_slash regexAllowed cs with hcomment | ⟨hline, -, hlexeme⟩
  · rcases h with h | h
    all_goals
      rw [h] at hcomment
      cases hcomment
  · refine ⟨hline, ?_⟩
    cases regexAllowed with
    | true => exact hlexeme
    | false =>
      rw [hlexeme] at h
      exact h.elim nofun nofun

theorem isFlag_iff : isFlag c = true ↔ isAlphanumeric c = true ∨ c = '_' ∨ c = '$' := by
  rw [isFlag, Bool.or_eq_true, Bool.or_eq_true, beq_iff_eq, beq_iff_eq, or_assoc]

theorem ne_of_not_isLineBreak (h : ¬ Text.isLineBreak c = true) : c ≠ '\r' ∧ c ≠ '\n' := by
  rwa [Text.isLineBreak_iff, not_or] at h

/-- A regular expression ends **at the first slash on its line that closes
it**, and takes all characters that can be flags behind it.  One that no slash
closes goes on to the end of its line. -/
theorem regex_extents (script : Text) (t : Token) (ht : t ∈ tokenize script) :
    ∃ before after, script = before ++ (t.text ++ after) ∧ t.span.start = before.byteLength ∧
      (t.kind = .regex → ∃ body flags, t.text = '/' :: (body ++ '/' :: flags) ∧ body ≠ [] ∧
        (∀ c ∈ body, c ≠ '\r' ∧ c ≠ '\n') ∧
        Closes body ∧ (∀ a b, body = a ++ '/' :: b → ¬ Closes a) ∧
        (∀ c ∈ flags, isAlphanumeric c = true ∨ c = '_' ∨ c = '$') ∧
        ∀ c ∈ after.head?, ¬ (isAlphanumeric c = true ∨ c = '_' ∨ c = '$')) ∧
      (t.kind = .unterminatedRegex → ∃ body, t.text = '/' :: body ∧
        (∀ c ∈ body, c ≠ '\r' ∧ c ≠ '\n') ∧ (∀ c ∈ after.head?, c = '\r' ∨ c = '\n') ∧
        ∀ a b, body = a ++ '/' :: b → ¬ Closes a) := by
  obtain ⟨before, regexAllowed, c, cs, rfl, hkind, htext, hspan⟩ := exists_nextLexeme_of_mem ht
  refine ⟨before, (nextLexeme regexAllowed c cs).rest, ?_, by rw [hspan], ?_⟩
  · rw [htext, nextLexeme_text_append_rest]
  by_cases hregex : t.kind = .regex ∨ t.kind = .unterminatedRegex
  · rw [hkind] at hregex
    obtain ⟨rfl, hcomment, hlexeme⟩ := nextLexeme_regex hregex
    have hreads : ReadsRegex [] cs (regexTail false false cs) :=
      regexTail_reads (iff_of_false Bool.false_ne_true not_opensClass_nil)
        (iff_of_false Bool.false_ne_true not_escapes_nil)
    rw [hkind, htext, hlexeme]
    generalize regexTail false false cs = tail at hreads
    cases hreads with
    | closed body after hbody hfirst hcloses =>
      refine ⟨fun _ => ⟨body, after.takeWhile isFlag, rfl, ?_, ?_, hcloses, hfirst, ?_, ?_⟩, nofun⟩
      · rintro rfl
        exact hcomment after rfl
      · exact fun d hd => ne_of_not_isLineBreak (hbody d hd)
      · exact fun d hd => isFlag_iff.mp (List.mem_takeWhile_imp hd)
      · intro d hd hflag
        have hstop := List.head?_dropWhile_not isFlag after
        have hd : (after.dropWhile isFlag).head? = some d := hd
        rw [hd] at hstop
        exact Bool.eq_false_iff.mp hstop (isFlag_iff.mpr hflag)
    | unterminated body after hbody hnone hends =>
      refine ⟨nofun, fun _ => ⟨body, rfl, ?_, ?_, hnone⟩⟩
      · exact fun d hd => ne_of_not_isLineBreak (hbody d hd)
      · exact fun d hd => Text.isLineBreak_iff.mp (hends d hd)
  · exact ⟨fun h => absurd (Or.inl h) hregex, fun h => absurd (Or.inr h) hregex⟩

/-- A slash in a class, an escaped one, the one that closes, and two flags. -/
def slashInClass : Text := ['=', '/', '[', '/', ']', '\\', '/', '/', 'g', 'é', ';']

/-- The third slash closes, and both letters are flags. -/
theorem regex_extents_slashInClass :
    ∃ t ∈ tokenize slashInClass, t.kind = .regex ∧ t.span = ⟨1, 11⟩ ∧
      ∃ body flags, t.text = '/' :: (body ++ '/' :: flags) ∧ Closes body ∧
        (∀ a b, body = a ++ '/' :: b → ¬ Closes a) ∧
        ∀ c ∈ flags, isAlphanumeric c = true ∨ c = '_' ∨ c = '$' := by
  have hmem : ⟨.regex, ['/', '[', '/', ']', '\\', '/', '/', 'g', 'é'], 1, 11⟩ ∈
      tokenize slashInClass := by decide +kernel
  obtain ⟨_, _, -, -, hregex, -⟩ := regex_extents slashInClass _ hmem
  obtain ⟨body, flags, htext, -, -, hcloses, hfirst, hflags, -⟩ := hregex rfl
  exact ⟨_, hmem, rfl, rfl, body, flags, htext, hcloses, hfirst, hflags⟩

end FenceFacts
