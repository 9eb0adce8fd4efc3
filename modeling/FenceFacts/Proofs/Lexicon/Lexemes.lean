import FenceFacts.Proofs.Lexicon.Literal
import FenceFacts.Proofs.Token

/-!
# FenceFacts — lexemes are longest matches

The reader chooses a rule by the first character of a script and takes what
that rule allows.  The table of rules says nothing about an order: the longest
match counts, and the kind of the lexeme is the one that has this text.  Both
come to the same, for every script.

## Results

* `Lexeme.followsRules_scan`    — one lexeme.
* `kind_unique`                — no text has two kinds.
* `tokens_are_longest_matches` — the tokens of a script.
-/

namespace FenceFacts

open Pattern Lexicon

variable {k : TokenKind} {c : Char} {q t : Text}

-- ---------------------------------------------------------------------------
-- Looking up the first character
-- ---------------------------------------------------------------------------

/-- What starts a lexeme, apart from the characters of numbers and
identifiers. -/
def signs : List Char :=
  [' ', '\t', '\x0c', '\r', '\n', '"', '\'', '\x60', '(', ')', '[', ']', '\x7b', '\x7d',
    '-', '+', '*', '/', '%', '=', '<', '>', '!', '&', '|', '^', '~', '?', ':', ';', ',', '.', '@',
    '#']

theorem of_mem_signs :
    ∀ d ∈ signs, isHorizontalSpace d = true ∨ d ∈ ['\n', '\r', '/', '"', '\'', '\x60', '.'] ∨
      (Bracket.opened? d).isSome = true ∨ (Bracket.closed? d).isSome = true ∨ isPunct d = true :=
  List.forall_iff_forall_mem.mp (by decide)

theorem lookup_blank (hc : isHorizontalSpace c = true) :
    c :: q ∈ textsOf k ↔ k = .whitespace ∧ ∀ x ∈ q, isHorizontalSpace x = true := by
  obtain rfl | rfl | rfl : c = ' ' ∨ c = '\t' ∨ c = '\x0c' := by
    simpa [isHorizontalSpace, or_assoc] using hc
  all_goals simp [mem_textsOf, rules, hc, isIdentStart, isPunct]

theorem lookup_newline : '\n' :: q ∈ textsOf k ↔ k = .newline ∧ q = [] := by
  simp [mem_textsOf, rules, isHorizontalSpace, isIdentStart, isPunct]

theorem lookup_carriageReturn : '\r' :: q ∈ textsOf k ↔ k = .newline ∧ q = ['\n'] := by
  simp [mem_textsOf, rules, isHorizontalSpace, isIdentStart, isPunct]

theorem lookup_slash :
    '/' :: q ∈ textsOf k ↔
      (k = .lineComment ∧ ∃ r, (∀ x ∈ r, ¬ Text.isLineBreak x = true) ∧ q = '/' :: r) ∨
      (∃ closed, k = (if closed then .blockComment else .unterminatedBlockComment) ∧
        ∃ r ∈ commentTexts closed, q = '*' :: r) ∨
      (k = .punct ∧ q = []) := by
  simp [mem_textsOf, rules, isHorizontalSpace, isIdentStart, isPunct, commentTexts, or_assoc,
    or_left_comm (a := k = .blockComment ∧ _)]

theorem lookup_quote {quote : Char} (hquote : quote = '"' ∨ quote = '\'') :
    quote :: q ∈ textsOf k ↔
      ∃ closed, k = (if closed then .string else .unterminatedString) ∧
        q ∈ stringTexts quote closed := by
  rcases hquote with rfl | rfl
  all_goals
    simp [mem_textsOf, rules, isHorizontalSpace, isIdentStart, isPunct, stringTexts, quotedTexts,
      stringBody, or_comm]

theorem lookup_backtick :
    '\x60' :: q ∈ textsOf k ↔
      ∃ closed, k = (if closed then .template else .unterminatedTemplate) ∧
        q ∈ templateTexts closed := by
  simp [mem_textsOf, rules, isHorizontalSpace, isIdentStart, isPunct, templateTexts, quotedTexts,
    templateBody, or_comm]

theorem lookup_point :
    '.' :: q ∈ textsOf k ↔
      (k = .punct ∧ q = []) ∨
      (k = .number ∧ ∃ d r, d.isDigit = true ∧ (∀ x ∈ r, isNumberPart x = true) ∧ q = d :: r) := by
  simp [mem_textsOf, rules, isHorizontalSpace, isIdentStart, isPunct, or_comm]

theorem lookup_opening {b : Bracket} (hc : Bracket.opened? c = some b) :
    c :: q ∈ textsOf k ↔ k = .opening b ∧ q = [] := by
  unfold Bracket.opened? at hc
  split at hc <;> cases hc
  all_goals simp [mem_textsOf, rules, isHorizontalSpace, isIdentStart, isPunct]

theorem lookup_closing {b : Bracket} (hc : Bracket.closed? c = some b) :
    c :: q ∈ textsOf k ↔ k = .closing b ∧ q = [] := by
  unfold Bracket.closed? at hc
  split at hc <;> cases hc
  all_goals simp [mem_textsOf, rules, isHorizontalSpace, isIdentStart, isPunct]

/-- An operator, apart from those that start something longer. -/
theorem lookup_punct (hc : isPunct c = true) (hslash : c ≠ '/') (hpoint : c ≠ '.') :
    c :: q ∈ textsOf k ↔ k = .punct ∧ q = [] := by
  have hothers : ∀ d ∈ "-+*/%=<>!&|^~?:;,.@#".toList,
      isHorizontalSpace d = false ∧ d.isDigit = false ∧ isIdentStart d = false ∧
        d ∉ ['\r', '\n', '"', '\'', '\x60', '(', ')', '[', ']', '\x7b', '\x7d'] :=
    List.forall_iff_forall_mem.mp (by decide)
  obtain ⟨hblank, hdigit, hident, hsigns⟩ := hothers c (List.contains_iff_mem.mp hc)
  simp only [List.mem_cons, List.not_mem_nil, or_false, not_or] at hsigns
  simp [mem_textsOf, rules, hc, hslash, hpoint, hblank, hdigit, hident, hsigns]

theorem lookup_unsigned (hc : c ∉ signs) :
    c :: q ∈ textsOf k ↔
      (k = .number ∧ c.isDigit = true ∧ q ∈ numberTexts) ∨
      (k = .ident ∧ isIdentStart c = true ∧ ∀ x ∈ q, isIdentPart x = true) := by
  simp only [signs, List.mem_cons, List.not_mem_nil, or_false, not_or] at hc
  simp [mem_textsOf, rules, hc, isHorizontalSpace, isPunct, numberTexts]

theorem not_mem_signs (hc : c.isDigit = true ∨ isIdentStart c = true) : c ∉ signs := by
  have hsigns : ∀ d ∈ signs, ¬ (d.isDigit = true ∨ isIdentStart d = true) :=
    List.forall_iff_forall_mem.mp (by decide)
  exact fun h => hsigns c h hc

theorem not_isIdentStart_of_isDigit (hc : c.isDigit = true) : ¬ isIdentStart c = true := by
  simp only [Char.isDigit, Bool.and_eq_true, decide_eq_true_eq, ge_iff_le,
    UInt32.le_iff_toNat_le] at hc
  simp [isIdentStart, Char.isAlpha, Char.isUpper, Char.isLower, UInt32.le_iff_toNat_le,
    ← Char.toNat_inj]
  have : c.val.toNat = c.toNat := rfl
  have : '0'.val.toNat = 48 := rfl
  have : '9'.val.toNat = 57 := rfl
  omega

theorem lookup_digit (hc : c.isDigit = true) :
    c :: q ∈ textsOf k ↔ k = .number ∧ q ∈ numberTexts := by
  rw [lookup_unsigned (not_mem_signs (Or.inl hc)), and_iff_right hc]
  exact or_iff_left fun h => not_isIdentStart_of_isDigit hc h.2.1

theorem lookup_identStart (hc : isIdentStart c = true) :
    c :: q ∈ textsOf k ↔ k = .ident ∧ ∀ x ∈ q, isIdentPart x = true := by
  rw [lookup_unsigned (not_mem_signs (Or.inr hc)), and_iff_right hc]
  exact or_iff_right fun h => not_isIdentStart_of_isDigit h.2.1 hc

-- ---------------------------------------------------------------------------
-- Scanning
-- ---------------------------------------------------------------------------

namespace Lexeme

/-- The lexeme is the longest match, or nothing matches and it is one unknown
character. -/
def FollowsRules (l : Lexeme) (t : Text) : Prop :=
  LongestMatch textsOf t l.kind l.text ∨
    (l.kind = .unknown ∧ l.text.length = 1 ∧
      ∀ k, ∀ p, p ≠ [] → p <+: t → p ∉ textsOf k)

/-- A kind with only one way to go on from here. -/
theorem longest_run {kind : TokenKind} {p : Char → Bool} (t : Text) :
    LongestMatch (fun k : TokenKind => {q | k = kind ∧ ∀ x ∈ q, p x = true}) t kind
      (t.takeWhile p) :=
  .run p t fun _ _ => Iff.rfl

theorem longest_delimited {texts : Bool → Language Char} {tail : Tail}
    (h : LongestMatch texts t tail.closed tail.text) (closed unterminated : TokenKind) :
    LongestMatch
      (fun k => {q | ∃ b, k = (if b then closed else unterminated) ∧ q ∈ texts b}) t
      (if tail.closed then closed else unterminated) tail.text :=
  h.relabel fun b => if b then closed else unterminated

theorem followsRules_carriageReturn (t : Text) : (carriageReturn t).FollowsRules ('\r' :: t) := by
  fun_cases carriageReturn t with
  | case1 rest =>
    have hfeed : LongestMatch (fun k : TokenKind => {q | k = .newline ∧ q = ['\n']})
        ('\n' :: rest) .newline ['\n'] :=
      .one fun k q _ => and_congr_right fun _ => by rw [List.cons_eq_cons, and_iff_right rfl]
    exact Or.inl (hfeed.cons fun k q _ => lookup_carriageReturn)
  | case2 t hfeed =>
    refine Or.inr ⟨rfl, rfl, fun k q hq hfront hmem => ?_⟩
    obtain ⟨d, q, rfl⟩ := List.exists_cons_of_ne_nil hq
    obtain ⟨rfl, hrest⟩ := List.cons_prefix_cons.mp hfront
    obtain ⟨-, rfl⟩ := lookup_carriageReturn.mp hmem
    obtain ⟨rest, rfl⟩ := hrest
    exact hfeed rest rfl

theorem longest_slash (t : Text) :
    LongestMatch textsOf ('/' :: t) (slash t).kind (slash t).text := by
  unfold slash
  split
  · next rest =>
    have hlookup (k : TokenKind) (q : Text) : '/' :: '/' :: q ∈ textsOf k ↔
        k = .lineComment ∧ ∀ x ∈ q, (!Text.isLineBreak x) = true := by
      simp [lookup_slash]
    exact (longest_run rest).cons_cons fun k q _ => hlookup k q
  · next rest =>
    have hlookup (k : TokenKind) (q : Text) : '/' :: '*' :: q ∈ textsOf k ↔
        ∃ b, k = (if b then .blockComment else .unterminatedBlockComment) ∧
          q ∈ commentTexts b := by
      simp [lookup_slash]
    exact (longest_delimited (blockCommentTail_longest rest) _ _).cons_cons
      fun k q _ => hlookup k q
  · next hline hblock =>
    refine .one fun k q hfront => ?_
    rw [lookup_slash]
    constructor
    · rintro (⟨-, r, -, rfl⟩ | ⟨-, -, r, -, rfl⟩ | hpunct)
      · obtain ⟨rest, rfl⟩ := hfront
        exact (hline (r ++ rest) rfl).elim
      · obtain ⟨rest, rfl⟩ := hfront
        exact (hblock (r ++ rest) rfl).elim
      · exact hpunct
    · exact fun h => Or.inr (Or.inr h)

theorem longest_point (t : Text) :
    LongestMatch textsOf ('.' :: t) (point t).kind (point t).text := by
  have hpunct (t : Text) (ht : ∀ d r, t = d :: r → ¬ d.isDigit = true) :
      LongestMatch textsOf ('.' :: t) .punct ['.'] := by
    refine .one fun k q hfront => ?_
    rw [lookup_point]
    refine or_iff_left ?_
    rintro ⟨-, d, r, hd, -, rfl⟩
    obtain ⟨rest, rfl⟩ := hfront
    exact ht d (r ++ rest) rfl hd
  fun_cases point t with
  | case1 c rest hdigit =>
    have hlookup (k : TokenKind) (q : Text) : '.' :: c :: q ∈ textsOf k ↔
        k = .number ∧ ∀ x ∈ q, isNumberPart x = true := by
      simp [lookup_point, hdigit]
    exact (longest_run rest).cons_cons fun k q _ => hlookup k q
  | case2 c rest hdigit =>
    refine hpunct (c :: rest) fun d r h => ?_
    obtain ⟨rfl, -⟩ := List.cons.inj h
    exact hdigit
  | case3 => exact hpunct [] fun d r h => absurd h (List.cons_ne_nil d r).symm

theorem number_kind (c : Char) (t : Text) : (number c t).kind = .number := by
  unfold number
  split <;> rfl

theorem followsRules_scan (c : Char) (t : Text) : (scan c t).FollowsRules (c :: t) := by
  fun_cases scan c t with
  | case1 hblank => exact Or.inl ((longest_run t).cons fun k q _ => lookup_blank hblank)
  | case2 _ hc =>
    subst hc
    exact Or.inl (.one fun k q _ => lookup_newline)
  | case3 _ _ hc =>
    subst hc
    exact followsRules_carriageReturn t
  | case4 _ _ _ hc =>
    subst hc
    exact Or.inl (longest_slash t)
  | case5 _ _ _ _ hquote =>
    rw [Bool.or_eq_true, decide_eq_true_eq, decide_eq_true_eq] at hquote
    have hescape : c ≠ '\\' := by
      rintro rfl
      exact absurd hquote (by decide)
    exact Or.inl ((longest_delimited (stringTail_longest hescape t) _ _).cons
      fun k q _ => lookup_quote hquote)
  | case6 _ _ _ _ _ hc =>
    subst hc
    exact Or.inl ((longest_delimited (templateTail_longest t) _ _).cons
      fun k q _ => lookup_backtick)
  | case7 _ _ _ _ _ _ hdigit =>
    obtain ⟨p, htext, hlong⟩ := number_longest t
    refine Or.inl ?_
    rw [htext, number_kind]
    exact (hlong.only TokenKind.number).cons fun k q _ => lookup_digit hdigit
  | case8 _ _ _ _ _ _ _ hc =>
    subst hc
    exact Or.inl (longest_point t)
  | case9 _ _ _ _ _ _ _ _ hident =>
    exact Or.inl ((longest_run t).cons fun k q _ => lookup_identStart hident)
  | case10 _ _ _ _ _ _ _ _ _ b hopened =>
    exact Or.inl (.one fun k q _ => lookup_opening hopened)
  | case11 _ _ _ _ _ _ _ _ _ b hclosed =>
    exact Or.inl (.one fun k q _ => lookup_closing hclosed)
  | case12 hblank hfeed hreturn hslash hquote hbacktick hdigit hpoint hident hclosed hopened =>
    by_cases hpunct : isPunct c = true
    · rw [if_pos hpunct]
      exact Or.inl (.one fun k q _ => lookup_punct hpunct hslash hpoint)
    · rw [if_neg hpunct]
      rw [Bool.or_eq_true, decide_eq_true_eq, decide_eq_true_eq] at hquote
      have hsign : c ∉ signs := by
        intro hc
        rcases of_mem_signs c hc with h | h | h | h | h
        · exact hblank h
        · simp only [List.mem_cons, List.not_mem_nil, or_false, hfeed, hreturn, hslash, hbacktick,
            hpoint, false_or] at h
          exact hquote h
        · rw [hopened] at h
          cases h
        · rw [hclosed] at h
          cases h
        · exact hpunct h
      refine Or.inr ⟨rfl, rfl, fun k p hp hfront hmem => ?_⟩
      obtain ⟨d, q, rfl⟩ := List.exists_cons_of_ne_nil hp
      obtain ⟨rfl, -⟩ := List.cons_prefix_cons.mp hfront
      rcases (lookup_unsigned hsign).mp hmem with ⟨-, hc, -⟩ | ⟨-, hc, -⟩
      · exact hdigit hc
      · exact hident hc

end Lexeme

-- ---------------------------------------------------------------------------
-- Scripts
-- ---------------------------------------------------------------------------

theorem nil_not_mem_textsOf : [] ∉ textsOf k := by
  simp [mem_textsOf, rules, Pattern.Matches, blanks, plus, lineEnd, lineComment, blockComment,
    openComment, string, openString, template, openTemplate, number, pointNumber, ident,
    Pattern.oneOf, char, nil_mem_mul, nil_not_mem_set]

/-- No text has **two kinds**. -/
theorem kind_unique {k' : TokenKind} (h : t ∈ textsOf k) (h' : t ∈ textsOf k') : k = k' := by
  cases t with
  | nil => exact absurd h nil_not_mem_textsOf
  | cons c q =>
    have hself : c :: q ≠ [] := List.cons_ne_nil c q
    rcases Lexeme.followsRules_scan c q with hlong | ⟨-, -, hnone⟩
    · rw [hlong.eq_of_whole h, hlong.eq_of_whole h']
    · exact absurd h (hnone k _ hself List.prefix_rfl)

/-- No rule is for regular expressions. -/
theorem Lexeme.FollowsRules.kind_ne {l : Lexeme} (h : l.FollowsRules t) :
    l.kind ≠ .regex ∧ l.kind ≠ .unterminatedRegex := by
  rcases h with hlong | ⟨hunknown, -⟩
  · have hrule : ∀ r ∈ rules, r.kind ≠ .regex ∧ r.kind ≠ .unterminatedRegex := by decide
    obtain ⟨r, hr, hkind, -⟩ := mem_textsOf.mp hlong.mem
    rw [hkind]
    exact hrule r hr
  · rw [hunknown]
    decide

/-- A lexeme follows the rules, unless a slash was read as the start of a
regular expression. -/
theorem nextLexeme_followsRules (regexAllowed : Bool) (c : Char) (t : Text) :
    (nextLexeme regexAllowed c t).FollowsRules (c :: t) ∨
      ((nextLexeme regexAllowed c t).kind = .regex ∨
        (nextLexeme regexAllowed c t).kind = .unterminatedRegex) ∧
      LongestMatch textsOf (c :: t) .punct ['/'] := by
  have hscan := Lexeme.followsRules_scan c t
  simp only [nextLexeme]
  split
  · next hslash =>
    simp only [Bool.and_eq_true, beq_iff_eq] at hslash
    refine Or.inr ⟨?_, ?_⟩
    · simp only [Lexeme.delimited]
      split
      · exact Or.inl rfl
      · exact Or.inr rfl
    · rcases hscan with hlong | ⟨hunknown, -⟩
      · rwa [hslash.1.2, hslash.2] at hlong
      · rw [hslash.1.2] at hunknown
        cases hunknown
  · exact Or.inl hscan

/-- A lexeme has a text of its kind, if that is one of the table. -/
theorem nextLexeme_mem_textsOf {regexAllowed : Bool}
    (h : (nextLexeme regexAllowed c t).kind ∉ [.unknown, .regex, .unterminatedRegex]) :
    (nextLexeme regexAllowed c t).text ∈ textsOf (nextLexeme regexAllowed c t).kind := by
  simp only [List.mem_cons, List.not_mem_nil, or_false, not_or] at h
  rcases nextLexeme_followsRules regexAllowed c t with (hlong | ⟨hunknown, -⟩) | ⟨hregex, -⟩
  · exact hlong.mem
  · exact absurd hunknown h.1
  · exact (hregex.elim h.2.1 h.2.2).elim

/-- The tokens of a script are **the longest matches** of the rules: where any
rule matches, a token has the longest text that one of them matches and the
only kind of that text, and where none does it is one unknown character.
Regular expressions stand only where the longest match is the operator `/`. -/
theorem tokens_are_longest_matches (script : Text) :
    (∀ t ∈ tokenize script, ∃ before rest : Text, script = before ++ rest ∧
      t.span.start = before.byteLength ∧ t.text <+: rest ∧
      (t.kind ≠ .regex → t.kind ≠ .unterminatedRegex →
        ((∃ k, ∃ p ∈ textsOf k, p ≠ [] ∧ p <+: rest) → LongestMatch textsOf rest t.kind t.text) ∧
        ((¬ ∃ k, ∃ p ∈ textsOf k, p ≠ [] ∧ p <+: rest) →
          t.kind = .unknown ∧ t.text.length = 1)) ∧
      (t.kind = .regex ∨ t.kind = .unterminatedRegex →
        LongestMatch textsOf rest .punct ['/'])) ∧
    ∀ p k k', p ∈ textsOf k → p ∈ textsOf k' → k = k' := by
  refine ⟨fun t ht => ?_, fun p k k' => kind_unique⟩
  obtain ⟨before, regexAllowed, c, cs, hscript, hkind, htext, hspan⟩ := exists_nextLexeme_of_mem ht
  have hfront : t.text <+: c :: cs :=
    ⟨(nextLexeme regexAllowed c cs).rest, by rw [htext, nextLexeme_text_append_rest]⟩
  refine ⟨before, c :: cs, hscript, by rw [hspan], hfront, ?_⟩
  rw [hkind, htext]
  rcases nextLexeme_followsRules regexAllowed c cs with hrules | ⟨hregex, hslash⟩
  · refine ⟨fun _ _ => ⟨fun hsome => ?_, fun hnone => ?_⟩, fun hregex => ?_⟩
    · obtain ⟨k, p, hp, hne, hstarts⟩ := hsome
      exact hrules.resolve_right fun hunknown => hunknown.2.2 k p hne hstarts hp
    · rcases hrules with hlong | ⟨hunknown, hone, -⟩
      · exact absurd ⟨_, _, hlong.mem, nextLexeme_text_ne_nil _ _ _, hlong.front⟩ hnone
      · exact ⟨hunknown, hone⟩
    · exact (hregex.elim hrules.kind_ne.1 hrules.kind_ne.2).elim
  · exact ⟨fun hne hne' => (hregex.elim hne hne').elim, fun _ => hslash⟩

end FenceFacts
