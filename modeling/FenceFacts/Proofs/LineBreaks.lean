import FenceFacts.Proofs.Lines
import FenceFacts.Proofs.Token

/-!
# FenceFacts — line ends in tokens

Few kinds of tokens can hold a line feed: a line end, and comments and
templates that go on over lines.  Of these only a line end and those without
their closing delimiter can end with one.  A carriage return that belongs to
none of them is a token of its own, which no script may hold.

## Results

* `spansLines_or_of_isLineBreak`    — the kinds of tokens with a part of a line end.
* `spansLines_of_mem`               — and of those with a line feed.
* `getLast?_ne_newline`             — the kinds of tokens that do not end with one.
* `getLast?_ne_newline_of_accepted` — and those of an accepted script.
-/

namespace FenceFacts

open Text

namespace TokenKind

/-- Tokens of this kind can hold a line feed. -/
def spansLines : TokenKind → Bool
  | newline | blockComment | unterminatedBlockComment | template | unterminatedTemplate => true
  | _ => false

/-- Tokens of this kind can end with a line feed. -/
def endsLines : TokenKind → Bool
  | newline | unterminatedBlockComment | unterminatedTemplate => true
  | _ => false

end TokenKind

-- ---------------------------------------------------------------------------
-- Tails
-- ---------------------------------------------------------------------------

/-- No part of a line end is in the text. -/
def Text.OnLine (t : Text) : Prop := ∀ c ∈ t, ¬ isLineBreak c = true

theorem onLine_nil : OnLine [] := List.forall_mem_nil _

theorem onLine_cons {c : Char} (hc : ¬ isLineBreak c = true) {t : Text} (h : t.OnLine) :
    OnLine (c :: t) :=
  List.forall_mem_cons.mpr ⟨hc, h⟩

theorem OnLine.append {s t : Text} (hs : s.OnLine) (ht : t.OnLine) : OnLine (s ++ t) :=
  List.forall_mem_append.mpr ⟨hs, ht⟩

/-- A run of characters of a class that line ends do not belong to. -/
theorem onLine_takeWhile {p : Char → Bool} (hcr : p '\r' = false) (hlf : p '\n' = false)
    (t : Text) : OnLine (t.takeWhile p) := by
  intro c hc hbreak
  have hp := List.all_eq_true.mp List.all_takeWhile c hc
  rcases isLineBreak_iff.mp hbreak with rfl | rfl
  · exact Bool.eq_false_iff.mp hcr hp
  · exact Bool.eq_false_iff.mp hlf hp

theorem onLine_stringTail {quote : Char} (hquote : ¬ isLineBreak quote = true) (t : Text) :
    OnLine (stringTail quote t).text := by
  fun_induction stringTail quote t with
  | case1 => exact onLine_nil
  | case2 => exact onLine_nil
  | case3 c rest hbreak ih => exact onLine_cons (by decide) (onLine_cons hbreak ih)
  | case4 => exact onLine_cons hquote onLine_nil
  | case5 => exact onLine_nil
  | case6 c rest _ _ hgo ih => exact onLine_cons (fun hbreak => hgo (by simp [hbreak])) ih

theorem onLine_regexTail (inClass escaped : Bool) (t : Text) :
    OnLine (regexTail inClass escaped t).text := by
  induction t generalizing inClass escaped with
  | nil => exact onLine_nil
  | cons c rest ih =>
    rw [regexTail]
    split
    · exact onLine_nil
    · next hbreak =>
      repeat' split
      all_goals first
        | exact onLine_cons hbreak (ih _ _)
        | exact onLine_cons hbreak (onLine_takeWhile (by decide) (by decide) rest)

theorem getLast?_blockCommentTail {t : Text} (h : (blockCommentTail t).closed = true) :
    (blockCommentTail t).text.getLast? = some '/' := by
  fun_induction blockCommentTail t with
  | case1 => cases h
  | case2 => rfl
  | case3 c rest _ ih =>
    rw [Tail.cons, List.getLast?_cons, ih h]
    rfl

theorem getLast?_templateTail {t : Text} (h : (templateTail t).closed = true) :
    (templateTail t).text.getLast? = some '\x60' := by
  fun_induction templateTail t with
  | case1 => cases h
  | case2 c rest ih =>
    rw [Tail.cons, List.getLast?_cons, Tail.cons, List.getLast?_cons, ih h]
    rfl
  | case3 => rfl
  | case4 => cases h
  | case5 c rest _ _ _ ih =>
    rw [Tail.cons, List.getLast?_cons, ih h]
    rfl

-- ---------------------------------------------------------------------------
-- Lexemes
-- ---------------------------------------------------------------------------

/-- The lexeme holds a part of a line end, or ends with a line feed, only if
its kind can or it is a carriage return alone. -/
structure Lexeme.BreaksAsKind (l : Lexeme) : Prop where
  spans : ∀ c ∈ l.text, isLineBreak c = true →
    l.kind.spansLines = true ∨ l.kind = .unknown ∧ l.text = ['\r']
  ends : l.text.getLast? = some '\n' → l.kind.endsLines = true

namespace Lexeme.BreaksAsKind

/-- A lexeme on one line. -/
theorem of_onLine {l : Lexeme} (h : l.text.OnLine) : l.BreaksAsKind where
  spans c hc hbreak := absurd hbreak (h c hc)
  ends hlast := absurd rfl (h _ (List.mem_of_getLast? hlast))

/-- A lexeme that goes on over lines and may end with a line feed. -/
theorem of_kind {l : Lexeme} (hspans : l.kind.spansLines = true) (hends : l.kind.endsLines = true) :
    l.BreaksAsKind :=
  ⟨fun _ _ _ => Or.inl hspans, fun _ => hends⟩

/-- A lexeme that may go on over lines, but not when it is closed end with one. -/
theorem delimited {closed unterminated : TokenKind} (hclosed : closed.spansLines = true)
    (hspans : unterminated.spansLines = true) (hends : unterminated.endsLines = true)
    (delimiter : Text) {tail : Tail} {last : Char} (hlast : last ≠ '\n')
    (htail : tail.closed = true → tail.text.getLast? = some last) :
    (Lexeme.delimited closed unterminated delimiter tail).BreaksAsKind := by
  unfold Lexeme.delimited
  cases h : tail.closed with
  | false => exact of_kind hspans hends
  | true =>
    refine ⟨fun _ _ _ => Or.inl hclosed, fun hnewline => ?_⟩
    rw [List.getLast?_append, htail h] at hnewline
    exact absurd (Option.some.inj hnewline) hlast

theorem single {c : Char} (hc : ¬ isLineBreak c = true) (kind : TokenKind) (rest : Text) :
    (Lexeme.single kind c rest).BreaksAsKind :=
  of_onLine (onLine_cons hc onLine_nil)

theorem run {c : Char} (hc : ¬ isLineBreak c = true) {p : Char → Bool} (hcr : p '\r' = false)
    (hlf : p '\n' = false) (kind : TokenKind) (rest : Text) :
    (Lexeme.run kind p c rest).BreaksAsKind :=
  of_onLine (onLine_cons hc (onLine_takeWhile hcr hlf rest))

theorem slash (rest : Text) : (Lexeme.slash rest).BreaksAsKind := by
  fun_cases Lexeme.slash rest with
  | case1 r =>
    have hrun : OnLine (r.takeWhile (!isLineBreak ·)) := onLine_takeWhile (by decide) (by decide) r
    exact of_onLine (onLine_cons (by decide) (onLine_cons (by decide) hrun))
  | case2 r => exact delimited rfl rfl rfl _ (by decide) getLast?_blockCommentTail
  | case3 => exact single (by decide) _ _

theorem number {c : Char} (hc : ¬ isLineBreak c = true) (rest : Text) :
    (Lexeme.number c rest).BreaksAsKind := by
  have hrun (t : Text) : OnLine (t.takeWhile isNumberPart) :=
    onLine_takeWhile (by decide) (by decide) t
  have hwhole := onLine_cons hc (hrun rest)
  unfold Lexeme.number
  split
  · next fraction _ => exact of_onLine (OnLine.append hwhole (onLine_cons (by decide) (hrun fraction)))
  · exact of_onLine hwhole

theorem point (rest : Text) : (Lexeme.point rest).BreaksAsKind := by
  cases rest with
  | nil => exact single (by decide) _ _
  | cons c cs =>
    rw [Lexeme.point]
    split
    · next hdigit =>
      have hc : ¬ isLineBreak c = true := fun hbreak => by
        rcases isLineBreak_iff.mp hbreak with rfl | rfl <;> cases hdigit
      have hrun : OnLine (cs.takeWhile isNumberPart) := onLine_takeWhile (by decide) (by decide) cs
      exact of_onLine (onLine_cons (by decide) (onLine_cons hc hrun))
    · exact single (by decide) _ _

theorem carriageReturn (rest : Text) : (Lexeme.carriageReturn rest).BreaksAsKind := by
  unfold Lexeme.carriageReturn
  split
  · exact of_kind rfl rfl
  · exact ⟨fun _ _ _ => Or.inr ⟨rfl, rfl⟩, fun hlast => absurd hlast (by simp [Lexeme.single])⟩

theorem scan (c : Char) (rest : Text) : (Lexeme.scan c rest).BreaksAsKind := by
  by_cases hc : isLineBreak c = true
  · rcases isLineBreak_iff.mp hc with rfl | rfl
    · exact carriageReturn rest
    · exact of_kind rfl rfl
  · have hne : c ≠ '\r' ∧ c ≠ '\n' := by rwa [isLineBreak_iff, not_or] at hc
    unfold Lexeme.scan
    rw [if_neg hne.2, if_neg hne.1]
    split
    · exact run hc (by decide) (by decide) _ rest
    split
    · exact slash rest
    split
    · exact of_onLine (onLine_cons hc (onLine_stringTail hc rest))
    split
    · exact delimited rfl rfl rfl _ (by decide) getLast?_templateTail
    split
    · exact number hc rest
    split
    · exact point rest
    split
    · exact run hc (by decide) (by decide) _ rest
    · split <;> exact single hc _ rest

theorem nextLexeme (regexAllowed : Bool) (c : Char) (rest : Text) :
    (FenceFacts.nextLexeme regexAllowed c rest).BreaksAsKind := by
  unfold FenceFacts.nextLexeme
  dsimp only
  split
  · exact of_onLine (onLine_cons (by decide) (onLine_regexTail _ _ _))
  · exact scan c rest

end Lexeme.BreaksAsKind

-- ---------------------------------------------------------------------------
-- Tokens
-- ---------------------------------------------------------------------------

variable {script : Text} {t : Token}

/-- The text of a token holds a part of a line end only if its kind can, or if
it is a carriage return alone. -/
theorem spansLines_or_of_isLineBreak (ht : t ∈ tokenize script) {c : Char} (hc : c ∈ t.text)
    (hbreak : isLineBreak c = true) :
    t.kind.spansLines = true ∨ t.kind = .unknown ∧ t.text = ['\r'] := by
  obtain ⟨-, regexAllowed, x, cs, -, hkind, htext, -⟩ := exists_nextLexeme_of_mem ht
  rw [htext] at hc ⊢
  rw [hkind]
  exact (Lexeme.BreaksAsKind.nextLexeme regexAllowed x cs).spans c hc hbreak

/-- Only **line ends, comments and templates** hold line feeds. -/
theorem spansLines_of_mem (ht : t ∈ tokenize script) (h : '\n' ∈ t.text) :
    t.kind.spansLines = true := by
  refine (spansLines_or_of_isLineBreak ht h rfl).resolve_right fun ⟨_, htext⟩ => ?_
  rw [htext] at h
  exact absurd h (by decide)

/-- Only line ends, and comments and templates without their closing
delimiter, **end with** one. -/
theorem getLast?_ne_newline (ht : t ∈ tokenize script) (h : t.kind.endsLines = false) :
    t.text.getLast? ≠ some '\n' := by
  intro hlast
  obtain ⟨-, regexAllowed, c, cs, -, hkind, htext, -⟩ := exists_nextLexeme_of_mem ht
  rw [htext] at hlast
  rw [hkind, (Lexeme.BreaksAsKind.nextLexeme regexAllowed c cs).ends hlast] at h
  cases h

/-- In an accepted script only **line ends** end with one. -/
theorem getLast?_ne_newline_of_accepted {options : AnalysisOptions} {a : Analysis}
    (h : analyze options script = .ok a) (ht : t ∈ tokenize script) (hkind : t.kind ≠ .newline) :
    t.text.getLast? ≠ some '\n' := by
  have hoffence : t.offence? options.ecmaVersion = none := by
    rw [analyze_eq] at h
    cases herror : tokenError? options.ecmaVersion (tokenize script) with
    | some e =>
      rw [herror] at h
      cases h
    | none => simpa using List.findSome?_eq_none_iff.mp herror t ht
  refine getLast?_ne_newline ht ?_
  unfold Token.offence? at hoffence
  cases hk : t.kind <;> first | rfl | exact absurd hk hkind | (rw [hk] at hoffence; cases hoffence)

end FenceFacts
