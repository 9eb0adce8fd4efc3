import FenceFacts.Proofs.Lexicon.Lexemes

/-!
# FenceFacts — how far ahead a lexeme looks

A reader that stops before the end of a script has seen the character that
stops it, and nothing further on can change its mind.  A backslash is the one
exception: where it is the last character, it takes nothing along and ends a
literal before itself, but with more text behind it it would not.  A line end
needs no character behind it at all.

So a lexeme is settled by what it leaves of the script, and the same lexeme is
read when the script goes on.

## Results

* `blockCommentTail_behind`, `stringTail_behind`, … — the readers of tails.
* `nextLexeme_behind`         — a lexeme that leaves enough of the script.
* `nextLexeme_newline_behind` — a line end.
-/

namespace FenceFacts

open Lexicon

variable {c quote : Char} {p : Char → Bool} {t : Text}

/-- What is left of a script shows that the reader did not stop because the
script did. -/
def Settles (rest : Text) : Prop := rest ≠ [] ∧ rest ≠ ['\\']

-- ---------------------------------------------------------------------------
-- Runs
-- ---------------------------------------------------------------------------

/-- A run that a character stops. -/
theorem span_append (h : t.dropWhile p ≠ []) (more : Text) :
    (t ++ more).takeWhile p = t.takeWhile p ∧ (t ++ more).dropWhile p = t.dropWhile p ++ more := by
  induction t with
  | nil => exact absurd rfl h
  | cons c t ih =>
    rw [List.cons_append]
    by_cases hc : p c = true
    · rw [List.dropWhile_cons_of_pos hc] at h
      obtain ⟨htake, hdrop⟩ := ih h
      rw [List.takeWhile_cons_of_pos hc, List.takeWhile_cons_of_pos hc,
        List.dropWhile_cons_of_pos hc, List.dropWhile_cons_of_pos hc, htake, hdrop]
      exact ⟨rfl, rfl⟩
    · rw [List.takeWhile_cons_of_neg hc, List.takeWhile_cons_of_neg hc,
        List.dropWhile_cons_of_neg hc, List.dropWhile_cons_of_neg hc]
      exact ⟨rfl, rfl⟩

-- ---------------------------------------------------------------------------
-- Tails
-- ---------------------------------------------------------------------------

/-- The same tail, with more text behind it. -/
def Tail.behind (more : Text) (t : Tail) : Tail := { t with rest := t.rest ++ more }

theorem blockCommentTail_behind (h : (blockCommentTail t).rest ≠ []) (more : Text) :
    blockCommentTail (t ++ more) = (blockCommentTail t).behind more := by
  fun_induction blockCommentTail t with
  | case1 => exact absurd rfl h
  | case2 rest => rfl
  | case3 c rest hslash ih =>
    rw [List.cons_append, blockCommentTail, ih h]
    · rfl
    · intro later hc hlater
      cases rest with
      | nil => exact h rfl
      | cons d rest => exact hslash rest hc (by rw [(List.cons.inj hlater).1])

theorem stringTail_cons_of_ne (hc : c ≠ '\\') (t : Text) :
    stringTail quote (c :: t) =
      if c = quote then ⟨true, [c], t⟩
      else if Text.isLineBreak c then .stop (c :: t) else (stringTail quote t).cons c := by
  rw [stringTail.eq_3 _ _ _ fun _ _ h => absurd h hc, decide_eq_false hc, Bool.or_false]

theorem stringTail_behind (hquote : quote ≠ '\\') (h : Settles (stringTail quote t).rest)
    (more : Text) : stringTail quote (t ++ more) = (stringTail quote t).behind more := by
  fun_induction stringTail quote t with
  | case1 => exact absurd rfl h.1
  | case2 c rest hbreak =>
    rw [List.cons_append, List.cons_append, stringTail, if_pos hbreak]
    rfl
  | case3 c rest hbreak ih =>
    rw [List.cons_append, List.cons_append, stringTail, if_neg hbreak, ih h]
    rfl
  | case4 rest _ =>
    rw [List.cons_append, stringTail_cons_of_ne hquote, if_pos rfl]
    rfl
  | case5 c rest hnext hc hend =>
    by_cases hescape : c = '\\'
    · -- a backslash that ends the reading has nothing behind it
      subst hescape
      cases rest with
      | nil => exact absurd rfl h.2
      | cons x xs => exact (hnext x xs rfl rfl).elim
    · rw [decide_eq_false hescape, Bool.or_false] at hend
      rw [List.cons_append, stringTail_cons_of_ne hescape, if_neg hc, if_pos hend]
      rfl
  | case6 c rest hnext hc hgo ih =>
    rw [Bool.or_eq_true, not_or, decide_eq_true_eq] at hgo
    rw [List.cons_append, stringTail_cons_of_ne hgo.2, if_neg hc, if_neg hgo.1, ih h]
    rfl

theorem templateTail_cons_of_ne (hc : c ≠ '\\') (t : Text) :
    templateTail (c :: t) =
      if c = '\x60' then ⟨true, [c], t⟩ else (templateTail t).cons c := by
  rw [templateTail.eq_3 _ _ fun _ _ h => absurd h hc, if_neg hc]

theorem templateTail_behind (h : Settles (templateTail t).rest) (more : Text) :
    templateTail (t ++ more) = (templateTail t).behind more := by
  fun_induction templateTail t with
  | case1 => exact absurd rfl h.1
  | case2 c rest ih =>
    rw [List.cons_append, List.cons_append, templateTail, ih h]
    rfl
  | case3 rest _ =>
    rw [List.cons_append, templateTail_cons_of_ne (by decide), if_pos rfl]
    rfl
  | case4 rest hnext hc =>
    cases rest with
    | nil => exact absurd rfl h.2
    | cons x xs => exact (hnext x xs rfl rfl).elim
  | case5 c rest hnext hc hplain ih =>
    rw [List.cons_append, templateTail_cons_of_ne hplain, if_neg hc, ih h]
    rfl

theorem regexTail_behind {inClass escaped : Bool} (h : (regexTail inClass escaped t).rest ≠ [])
    (more : Text) :
    regexTail inClass escaped (t ++ more) = (regexTail inClass escaped t).behind more := by
  induction t generalizing inClass escaped with
  | nil => exact absurd rfl h
  | cons c rest ih =>
    have hcons {inClass escaped : Bool} (h : (regexTail inClass escaped rest).rest ≠ []) :
        (regexTail inClass escaped (rest ++ more)).cons c =
          ((regexTail inClass escaped rest).cons c).behind more := by
      rw [ih h]
      rfl
    revert h
    rw [List.cons_append, regexTail, regexTail]
    split
    · exact fun _ => rfl
    split
    · exact hcons
    split
    · exact hcons
    split
    · exact hcons
    split
    · exact hcons
    split
    · -- the flags are a run behind the closing slash
      intro h
      obtain ⟨htake, hdrop⟩ := span_append (p := isFlag) (t := rest) h more
      rw [htake, hdrop]
      rfl
    · exact hcons

-- ---------------------------------------------------------------------------
-- Lexemes
-- ---------------------------------------------------------------------------

namespace Lexeme

/-- The same lexeme, with more text behind it. -/
def behind (more : Text) (l : Lexeme) : Lexeme := { l with rest := l.rest ++ more }

theorem run_behind {kind : TokenKind} (h : (run kind p c t).rest ≠ []) (more : Text) :
    run kind p c (t ++ more) = (run kind p c t).behind more := by
  obtain ⟨htake, hdrop⟩ := span_append (p := p) h more
  rw [run, htake, hdrop]
  rfl

theorem slash_behind (h : Settles (slash t).rest) (more : Text) :
    slash (t ++ more) = (slash t).behind more := by
  unfold slash at h
  split at h
  · next rest =>
    obtain ⟨htake, hdrop⟩ := span_append (p := (!Text.isLineBreak ·)) (t := rest) h.1 more
    rw [List.cons_append, slash, htake, hdrop]
    rfl
  · next rest =>
    rw [List.cons_append, slash, blockCommentTail_behind h.1]
    rfl
  · next hline hblock =>
    obtain ⟨d, t, rfl⟩ := List.exists_cons_of_ne_nil h.1
    rw [List.cons_append, slash, slash]
    · rfl
    · exact fun rest hrest => hline rest hrest
    · exact fun rest hrest => hblock rest hrest
    · exact fun rest hrest => hline t (by rw [(List.cons.inj hrest).1])
    · exact fun rest hrest => hblock t (by rw [(List.cons.inj hrest).1])

theorem point_behind (h : Settles (point t).rest) (more : Text) :
    point (t ++ more) = (point t).behind more := by
  revert h
  fun_cases point t with
  | case1 c rest hdigit =>
    intro h
    obtain ⟨htake, hdrop⟩ := span_append (p := isNumberPart) (t := rest) h.1 more
    rw [List.cons_append, point, if_pos hdigit, htake, hdrop]
    rfl
  | case2 c rest hdigit =>
    intro _
    rw [List.cons_append, point, if_neg hdigit]
    rfl
  | case3 => exact fun h => absurd rfl h.1

theorem number_behind (h : Settles (number c t).rest) (more : Text) :
    number c (t ++ more) = (number c t).behind more := by
  unfold number at h
  split at h
  · next fraction hpoint =>
    have hrun : t.dropWhile isNumberPart ≠ [] := by
      rw [hpoint]
      exact List.cons_ne_nil _ _
    obtain ⟨htake, hdrop⟩ := span_append hrun more
    obtain ⟨htake', hdrop'⟩ := span_append (p := isNumberPart) (t := fraction) h.1 more
    simp only [number, behind, htake, hdrop, hpoint, List.cons_append, htake', hdrop']
  · next hpoint =>
    obtain ⟨htake, hdrop⟩ := span_append (p := isNumberPart) h.1 more
    obtain ⟨d, rest, hrest⟩ : ∃ d rest, t.dropWhile isNumberPart = d :: rest :=
      List.exists_cons_of_ne_nil h.1
    have hd : d ≠ '.' := by
      rintro rfl
      exact hpoint rest hrest
    simp [number, htake, hdrop, hrest, behind, hd]

theorem carriageReturn_behind (h : Settles (carriageReturn t).rest) (more : Text) :
    carriageReturn (t ++ more) = (carriageReturn t).behind more := by
  revert h
  fun_cases carriageReturn t with
  | case1 rest => exact fun _ => rfl
  | case2 t hfeed =>
    intro h
    obtain ⟨d, t, rfl⟩ := List.exists_cons_of_ne_nil h.1
    rw [carriageReturn]
    · rfl
    · exact fun rest hrest => hfeed t (by rw [(List.cons.inj hrest).1])

/-- A choice that the text behind has no part in. -/
theorem ite_behind {more : Text} {P : Prop} [Decidable P] {l l' m m' : Lexeme}
    (hl : P → Settles l.rest → l' = l.behind more)
    (hm : ¬ P → Settles m.rest → m' = m.behind more) :
    Settles (if P then l else m).rest →
      (if P then l' else m') = (if P then l else m).behind more := by
  by_cases hP : P
  · rw [if_pos hP, if_pos hP]
    exact hl hP
  · rw [if_neg hP, if_neg hP]
    exact hm hP

theorem scan_behind (h : Settles (scan c t).rest) (more : Text) :
    scan c (t ++ more) = (scan c t).behind more := by
  revert h
  unfold scan
  refine ite_behind (fun _ h => run_behind h.1 more) fun _ => ?_
  refine ite_behind (fun _ _ => rfl) fun _ => ?_
  refine ite_behind (fun _ h => carriageReturn_behind h more) fun _ => ?_
  refine ite_behind (fun _ h => slash_behind h more) fun _ => ?_
  refine ite_behind (fun hquote h => ?_) fun _ => ?_
  · have hescape : c ≠ '\\' := by
      rintro rfl
      exact absurd hquote (by decide)
    rw [stringTail_behind hescape h]
    rfl
  refine ite_behind (fun _ h => ?_) fun _ => ?_
  · rw [templateTail_behind h]
    rfl
  refine ite_behind (fun _ h => number_behind h more) fun _ => ?_
  refine ite_behind (fun _ h => point_behind h more) fun _ => ?_
  refine ite_behind (fun _ h => run_behind h.1 more) fun _ => ?_
  split <;> exact fun _ => rfl

end Lexeme

/-- A lexeme that leaves **enough of the script** is read as well when the
script goes on. -/
theorem nextLexeme_behind {regexAllowed : Bool} (h : Settles (nextLexeme regexAllowed c t).rest)
    (more : Text) :
    nextLexeme regexAllowed c (t ++ more) = (nextLexeme regexAllowed c t).behind more := by
  -- the tail of a regular expression leaves no more than the slash before it did
  have hscan : Settles (Lexeme.scan c t).rest := by
    simp only [nextLexeme] at h
    split at h
    · refine ⟨fun hnil => h.1 ?_, fun hnil => h.1 ?_⟩
      · rw [hnil]
        rfl
      · rw [hnil]
        rfl
    · exact h
  revert h
  simp only [nextLexeme, Lexeme.scan_behind hscan more, Lexeme.behind]
  split
  · intro h
    rw [regexTail_behind h.1]
    rfl
  · exact fun _ => rfl

/-- **A line end** is read as well when the script goes on, whatever it leaves. -/
theorem nextLexeme_newline_behind {regexAllowed : Bool}
    (h : (nextLexeme regexAllowed c t).kind = .newline) (more : Text) :
    nextLexeme regexAllowed c (t ++ more) = (nextLexeme regexAllowed c t).behind more := by
  have hmem : (nextLexeme regexAllowed c t).text ∈
      textsOf (nextLexeme regexAllowed c t).kind := by
    refine nextLexeme_mem_textsOf ?_
    rw [h]
    decide
  have hsplit := nextLexeme_text_append_rest regexAllowed c t
  obtain ⟨d, q, htext⟩ := List.exists_cons_of_ne_nil (nextLexeme_text_ne_nil regexAllowed c t)
  rw [h, htext] at hmem
  rw [htext] at hsplit
  have hends : d = '\r' ∧ q = ['\n'] ∨ d = '\n' ∧ q = [] := by
    simpa [mem_textsOf, rules] using hmem
  obtain ⟨rfl, ht⟩ := List.cons.inj hsplit
  rcases hends with ⟨rfl, rfl⟩ | ⟨rfl, -⟩
  · obtain ⟨rest, rfl⟩ : ∃ rest, t = '\n' :: rest := ⟨_, ht.symm⟩
    cases regexAllowed <;> rfl
  · cases regexAllowed <;> rfl

end FenceFacts
