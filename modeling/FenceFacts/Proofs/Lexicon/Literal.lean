import FenceFacts.Proofs.Lexicon.LongestMatch
import FenceFacts.Proofs.Lexicon.Rules

/-!
# FenceFacts — delimited lexemes and numbers

How far a comment, a string, a template or a number goes.  The texts behind an
opening delimiter are of two kinds, closed and open, and the reader does not
know which it is in until it has found the closing delimiter or run out of
characters.  Each of its steps leaves a text to be matched by the same two
languages, so the longest match is found by induction along the reader's own
recursion.

A comment is the one that has to look ahead.  Behind a star the slash that
closes it is awaited, in a language of its own; where another character comes
next, that language is the one from before the star.

## Results

* `blockCommentTail_longest`, `stringTail_longest`, `templateTail_longest`,
  `number_longest` — each reader takes the longest match.
-/

namespace FenceFacts

open Pattern Lexicon
open scoped Computability

variable {c : Char} {q t : Text} {closed : Bool}

-- ---------------------------------------------------------------------------
-- Block comments
-- ---------------------------------------------------------------------------

/-- What may stand behind `/*`, in a comment that is closed or left open. -/
def commentTexts : Bool → Language Char
  | true => (commentBody * plus (char '*') * char '/').language
  | false => (commentBody * star (char '*')).language

/-- What may end a comment behind a star. -/
def commentEnds : Bool → Language Char
  | true => (char '/').language
  | false => 1

/-- What may stand behind a star in a comment. -/
def starredTexts (closed : Bool) : Language Char :=
  (star (char '*')).language *
    (commentEnds closed + (Pattern.noneOf ['*', '/']).language * commentTexts closed)

theorem cons_mem_stars_mul {L : Language Char} :
    c :: q ∈ (star (char '*')).language * L ↔
      c :: q ∈ L ∨ c = '*' ∧ q ∈ (star (char '*')).language * L := by
  rw [language_star, mem_star_mul, cons_mem_char_mul]

/-- The body of a comment goes on with a star or without. -/
theorem cons_mem_commentBody_mul {L : Language Char} :
    c :: q ∈ commentBody.language * L ↔
      c :: q ∈ L ∨ c ≠ '*' ∧ q ∈ commentBody.language * L ∨
        c = '*' ∧ q ∈ (star (char '*')).language *
          ((Pattern.noneOf ['*', '/']).language * (commentBody.language * L)) := by
  rw [commentBody, language_star, mem_star_mul]
  simp only [language_add, language_mul, plus, add_mul, mul_assoc, Language.mem_add,
    cons_mem_char_mul, Pattern.noneOf, cons_mem_set_mul, CharSet.has_noneOf, List.mem_singleton]

theorem cons_mem_commentTexts :
    c :: q ∈ commentTexts closed ↔
      c ≠ '*' ∧ q ∈ commentTexts closed ∨ c = '*' ∧ q ∈ starredTexts closed := by
  rw [starredTexts, mul_add, Language.mem_add]
  cases closed with
  | true =>
    simp only [commentTexts, commentEnds, language_mul, plus, mul_assoc]
    rw [cons_mem_commentBody_mul, cons_mem_char_mul]
    tauto
  | false =>
    have hstars := cons_mem_stars_mul (c := c) (q := q) (L := 1)
    simp only [mul_one, Language.mem_one, List.cons_ne_nil, false_or] at hstars
    simp only [commentTexts, commentEnds, language_mul, mul_one]
    rw [cons_mem_commentBody_mul, hstars]
    tauto

theorem cons_mem_starredTexts :
    c :: q ∈ starredTexts closed ↔
      closed = true ∧ c = '/' ∧ q = [] ∨ c = '*' ∧ q ∈ starredTexts closed ∨
        c ≠ '*' ∧ c ≠ '/' ∧ q ∈ commentTexts closed := by
  have hends : c :: q ∈ commentEnds closed ↔ closed = true ∧ c = '/' ∧ q = [] := by
    cases closed <;> simp [commentEnds, mem_char]
  rw [starredTexts, cons_mem_stars_mul, Language.mem_add, hends, Pattern.noneOf, cons_mem_set_mul,
    CharSet.has_noneOf]
  simp only [List.mem_cons, List.not_mem_nil, or_false, not_or]
  tauto

theorem nil_mem_commentTexts : [] ∈ commentTexts closed ↔ closed = false := by
  cases closed <;> simp [commentTexts, commentBody, nil_mem_mul, mem_char, Language.nil_mem_kstar]

theorem nil_mem_starredTexts : [] ∈ starredTexts closed ↔ closed = false := by
  have hstars : [] ∈ (star (char '*')).language := Language.nil_mem_kstar _
  rw [starredTexts, nil_mem_mul, and_iff_right hstars, Language.mem_add, Pattern.noneOf,
    or_iff_left not_nil_mem_set_mul]
  cases closed <;> simp [commentEnds, mem_char]

/-- Where no slash comes next, nothing depends on the star before it. -/
theorem mem_starredTexts_iff (h : q.head? ≠ some '/') :
    q ∈ starredTexts closed ↔ q ∈ commentTexts closed := by
  cases q with
  | nil => rw [nil_mem_starredTexts, nil_mem_commentTexts]
  | cons c q =>
    rw [cons_mem_starredTexts, cons_mem_commentTexts]
    have hc : c ≠ '/' := fun hc => h (by rw [hc]; rfl)
    tauto

/-- A comment ends at the first `*/`. -/
theorem blockCommentTail_longest (t : Text) :
    LongestMatch commentTexts t (blockCommentTail t).closed (blockCommentTail t).text := by
  fun_induction blockCommentTail t with
  | case1 => exact .atEnd fun closed => nil_mem_commentTexts
  | case2 rest =>
    have hend : LongestMatch starredTexts ('/' :: rest) true ['/'] :=
      .one fun closed q _ => by simp [cons_mem_starredTexts]
    exact hend.cons fun closed q _ => by simp [cons_mem_commentTexts]
  | case3 c rest hslash ih =>
    refine ih.cons fun closed q hfront => ?_
    rw [cons_mem_commentTexts]
    by_cases hc : c = '*'
    · -- no slash behind this star, or it would close the comment
      have hhead : q.head? ≠ some '/' := by
        rintro hhead
        obtain ⟨r, rfl⟩ := List.head?_eq_some_iff.mp hhead
        obtain ⟨after, rfl⟩ := hfront
        exact hslash (r ++ after) hc rfl
      rw [mem_starredTexts_iff hhead]
      tauto
    · tauto

-- ---------------------------------------------------------------------------
-- Strings and templates
-- ---------------------------------------------------------------------------

/-- What may stand behind an opening quote, in a literal that is closed or
left open. -/
def quotedTexts (plain escapable : CharSet) (quote : Char) : Bool → Language Char
  | true => (quotedBody plain escapable * char quote).language
  | false => (quotedBody plain escapable).language

/-- The characters of a string do not leave the line. -/
def stringTexts (quote : Char) : Bool → Language Char :=
  quotedTexts (.noneOf [quote, '\\', '\r', '\n']) (.noneOf ['\r', '\n']) quote

def templateTexts : Bool → Language Char :=
  quotedTexts (.noneOf ['\x60', '\\']) (.noneOf []) '\x60'

section Quoted

variable {plain escapable : CharSet} {quote : Char}

theorem nil_mem_quotedTexts : [] ∈ quotedTexts plain escapable quote closed ↔ closed = false := by
  cases closed <;> simp [quotedTexts, quotedBody, nil_mem_mul, mem_char, Language.nil_mem_kstar]

theorem cons_mem_quotedBody_mul {L : Language Char} :
    c :: q ∈ (quotedBody plain escapable).language * L ↔
      c :: q ∈ L ∨ plain.has c = true ∧ q ∈ (quotedBody plain escapable).language * L ∨
        c = '\\' ∧ q ∈ (Pattern.set escapable).language *
          ((quotedBody plain escapable).language * L) := by
  rw [quotedBody, language_star, mem_star_mul]
  simp only [language_add, language_mul, add_mul, mul_assoc, Language.mem_add, cons_mem_char_mul,
    cons_mem_set_mul]

/-- A quoted text ends with its quote, or goes on with a plain character or
with one that a backslash takes along. -/
theorem cons_mem_quotedTexts :
    c :: q ∈ quotedTexts plain escapable quote closed ↔
      (closed = true ∧ c = quote ∧ q = []) ∨
      (plain.has c = true ∧ q ∈ quotedTexts plain escapable quote closed) ∨
      (c = '\\' ∧
        q ∈ (Pattern.set escapable).language * quotedTexts plain escapable quote closed) := by
  cases closed with
  | true => simp [quotedTexts, cons_mem_quotedBody_mul, mem_char]
  | false =>
    have h : c :: q ∈ (quotedBody plain escapable).language * 1 ↔ _ := cons_mem_quotedBody_mul
    simpa [quotedTexts] using h

/-- A backslash at the end of the script takes nothing along. -/
theorem not_mem_escaped {L : Language Char}
    (hescape : ∀ d rest, c = '\\' → t = d :: rest → False) (hc : c = '\\') (hfront : q <+: t) :
    q ∉ (Pattern.set escapable).language * L := by
  cases q with
  | nil => exact not_nil_mem_set_mul
  | cons d q =>
    obtain ⟨rest, rfl⟩ := hfront
    exact (hescape d (q ++ rest) hc rfl).elim

theorem cons_mem_stringTexts :
    c :: q ∈ stringTexts quote closed ↔
      (closed = true ∧ c = quote ∧ q = []) ∨
      (c ≠ quote ∧ c ≠ '\\' ∧ ¬ Text.isLineBreak c = true ∧ q ∈ stringTexts quote closed) ∨
      (c = '\\' ∧
        q ∈ (Pattern.set (.noneOf ['\r', '\n'])).language * stringTexts quote closed) := by
  have hplain : (CharSet.noneOf [quote, '\\', '\r', '\n']).has c = true ↔
      c ≠ quote ∧ c ≠ '\\' ∧ ¬ Text.isLineBreak c = true := by
    simp [Text.isLineBreak]
  rw [stringTexts, cons_mem_quotedTexts, hplain, and_assoc, and_assoc]

/-- A string ends at its first quote, or else before the end of its line. -/
theorem stringTail_longest (hquote : quote ≠ '\\') (t : Text) :
    LongestMatch (stringTexts quote) t (stringTail quote t).closed (stringTail quote t).text := by
  fun_induction stringTail quote t with
  | case1 => exact .atEnd fun closed => nil_mem_quotedTexts
  | case2 c rest hbreak =>
    refine .stop (fun closed => nil_mem_quotedTexts) fun closed q hfront hq => ?_
    rcases cons_mem_stringTexts.mp hq with ⟨-, hc, -⟩ | ⟨-, hc, -⟩ | ⟨-, hq⟩
    · exact hquote hc.symm
    · exact hc rfl
    · cases q with
      | nil => exact not_nil_mem_set_mul hq
      | cons d q =>
        obtain ⟨rfl, -⟩ := List.cons_prefix_cons.mp hfront
        exact has_plain.mp (cons_mem_set_mul.mp hq).1 hbreak
  | case3 c rest hbreak ih =>
    have hescaped : LongestMatch
        (fun closed => (Pattern.set (.noneOf ['\r', '\n'])).language * stringTexts quote closed)
        (c :: rest) _ (c :: (stringTail quote rest).text) :=
      ih.cons fun closed q _ => by
        rw [cons_mem_set_mul, has_plain, and_iff_right hbreak]
    refine hescaped.cons fun closed q _ => ?_
    simp [cons_mem_stringTexts, hquote.symm]
  | case4 rest hescape =>
    refine .one fun closed q _ => ?_
    simp [cons_mem_stringTexts, hquote]
  | case5 c rest hescape hc hstop =>
    refine .stop (fun closed => nil_mem_quotedTexts) fun closed q hfront hq => ?_
    rw [Bool.or_eq_true, decide_eq_true_eq] at hstop
    rcases cons_mem_stringTexts.mp hq with ⟨-, hquoted, -⟩ | ⟨-, hplain, hline, -⟩ |
      ⟨rfl, hnothing⟩
    · exact hc hquoted
    · exact hstop.elim hline hplain
    · exact not_mem_escaped hescape rfl hfront hnothing
  | case6 c rest hescape hc hstop ih =>
    refine ih.cons fun closed q _ => ?_
    rw [Bool.or_eq_true, not_or, decide_eq_true_eq] at hstop
    simp [cons_mem_stringTexts, hc, hstop]

theorem cons_mem_templateTexts :
    c :: q ∈ templateTexts closed ↔
      (closed = true ∧ c = '\x60' ∧ q = []) ∨
      (c ≠ '\x60' ∧ c ≠ '\\' ∧ q ∈ templateTexts closed) ∨
      (c = '\\' ∧ q ∈ (Pattern.set (.noneOf [])).language * templateTexts closed) := by
  have hplain : (CharSet.noneOf ['\x60', '\\']).has c = true ↔ c ≠ '\x60' ∧ c ≠ '\\' := by
    simp
  rw [templateTexts, cons_mem_quotedTexts, hplain, and_assoc]

/-- A template ends at its first backtick, or else with the script. -/
theorem templateTail_longest (t : Text) :
    LongestMatch templateTexts t (templateTail t).closed (templateTail t).text := by
  fun_induction templateTail t with
  | case1 => exact .atEnd fun closed => nil_mem_quotedTexts
  | case2 c rest ih =>
    have hescaped : LongestMatch
        (fun closed => (Pattern.set (.noneOf [])).language * templateTexts closed)
        (c :: rest) _ (c :: (templateTail rest).text) :=
      ih.cons fun closed q _ => by simp [cons_mem_set_mul]
    refine hescaped.cons fun closed q _ => ?_
    simp [cons_mem_templateTexts]
  | case3 rest hescape =>
    refine .one fun closed q _ => ?_
    simp [cons_mem_templateTexts]
  | case4 rest hescape hc =>
    refine .stop (fun closed => nil_mem_quotedTexts) fun closed q hfront hq => ?_
    rcases cons_mem_templateTexts.mp hq with ⟨-, hquoted, -⟩ | ⟨-, hplain, -⟩ | ⟨-, hnothing⟩
    · exact hc hquoted
    · exact hplain rfl
    · exact not_mem_escaped hescape rfl hfront hnothing
  | case5 c rest hescape hc hstop ih =>
    refine ih.cons fun closed q _ => ?_
    simp [cons_mem_templateTexts, hc, hstop]

end Quoted

-- ---------------------------------------------------------------------------
-- Numbers
-- ---------------------------------------------------------------------------

/-- What may stand behind the first digit of a number. -/
def numberTexts : Language Char :=
  (star (set numberParts) * Pattern.optional (char '.' * star (set numberParts))).language

theorem nil_mem_numberTexts : [] ∈ numberTexts := by
  rw [numberTexts, language_mul, Pattern.optional, language_add, language_star, nil_mem_mul]
  exact ⟨Language.nil_mem_kstar _, (Language.mem_add _ _ _).mpr (Or.inr rfl)⟩

theorem cons_mem_numberTexts :
    c :: q ∈ numberTexts ↔
      (isNumberPart c = true ∧ q ∈ numberTexts) ∨
      (c = '.' ∧ ∀ x ∈ q, isNumberPart x = true) := by
  simp only [numberTexts, Pattern.optional, language_mul, language_add, language_empty,
    language_star, mem_star_mul (t := c :: q), Language.mem_add, cons_mem_set_mul,
    cons_mem_char_mul, mem_star_set, has_numberParts, Language.mem_one, List.cons_ne_nil, or_false]
  exact or_comm

/-- A number takes one point, and the digits and letters on both sides. -/
theorem number_longest (t : Text) :
    ∃ p, (∀ c, (Lexeme.number c t).text = c :: p) ∧
      LongestMatch (fun _ : Unit => numberTexts) t () p := by
  have hnil : Unit → ([] ∈ numberTexts ↔ () = ()) := fun _ => iff_of_true nil_mem_numberTexts rfl
  induction t with
  | nil => exact ⟨[], fun c => rfl, .atEnd hnil⟩
  | cons d t ih =>
    obtain ⟨p, htext, hlong⟩ := ih
    by_cases hd : isNumberPart d = true
    · refine ⟨d :: p, fun c => ?_, hlong.cons fun _ q _ => ?_⟩
      · have hsame : (Lexeme.number c (d :: t)).text = c :: (Lexeme.number d t).text := by
          simp only [Lexeme.number, List.takeWhile_cons_of_pos hd, List.dropWhile_cons_of_pos hd]
          split <;> rfl
        rw [hsame, htext]
      · have hpoint : d ≠ '.' := by
          rintro rfl
          exact absurd hd (by decide)
        simp [cons_mem_numberTexts, hd, hpoint]
    · by_cases hpoint : d = '.'
      · subst hpoint
        have hfraction : LongestMatch
            (fun _ : Unit => {q | ∀ x ∈ q, isNumberPart x = true}) t () _ :=
          .run isNumberPart t fun _ q => (and_iff_right rfl).symm
        refine ⟨'.' :: t.takeWhile isNumberPart, fun c => ?_, hfraction.cons fun _ q _ => ?_⟩
        · simp only [Lexeme.number, List.takeWhile_cons_of_neg hd, List.dropWhile_cons_of_neg hd]
          rfl
        · rw [cons_mem_numberTexts, or_iff_right (fun h => hd h.1), and_iff_right rfl]
          rfl
      · refine ⟨[], fun c => ?_, .stop hnil fun _ q _ hq => ?_⟩
        · simp only [Lexeme.number, List.takeWhile_cons_of_neg hd, List.dropWhile_cons_of_neg hd]
          split
          · next h => exact absurd (List.cons.inj h).1 hpoint
          · rfl
        · rcases cons_mem_numberTexts.mp hq with ⟨hpart, -⟩ | ⟨hc, -⟩
          · exact hd hpart
          · exact hpoint hc

end FenceFacts
