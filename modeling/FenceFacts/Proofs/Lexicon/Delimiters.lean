import FenceFacts.Proofs.Lexicon.Regex

/-!
# FenceFacts — closing delimiters

Comments, strings and templates stand between an opening and a closing
delimiter.  Not every place where the closing one is found counts: in a string
or a template it must not be escaped, and a string does not leave its line.
Whether it counts is told from the text between the two alone.  So a literal
ends at the first place that counts, and it is unterminated exactly if there
is none.

The readers never look back.  Each of their steps takes a character, or a
backslash with the one behind it, and such a piece neither closes the literal
nor matters to what closes it later.  `Delimiters.Reads.append` says so once
for all of them.

## Results

* `Delimiters.Reads.append` — a piece that is read first.
* `blockCommentTail_reads`, `stringTail_reads`, `templateTail_reads` — how far
  each reader goes.
* `unterminated_exactly_if_unclosed` — the comments, strings and templates of
  a script.
-/

namespace FenceFacts

variable {c quote : Char} {p a rest t : Text} {tail : Tail}

-- ---------------------------------------------------------------------------
-- Escapes
-- ---------------------------------------------------------------------------

/-- Escapes start afresh behind a text that escapes nothing. -/
theorem escapes_append (hp : ¬ Escapes p) : Escapes (p ++ a) ↔ Escapes a := by
  induction a using List.reverseRecOn with
  | nil => simpa [not_escapes_nil] using hp
  | append_singleton a c ih => rw [← List.append_assoc, escapes_concat, escapes_concat, ih]

theorem escapes_singleton : Escapes [c] ↔ c = '\\' := by
  rw [← List.nil_append [c], escapes_concat, and_iff_left not_escapes_nil]

theorem escapes_cons (hc : c ≠ '\\') : Escapes (c :: a) ↔ Escapes a :=
  escapes_append (p := [c]) (mt escapes_singleton.mp hc)

/-- A backslash and the character it takes along change nothing behind them. -/
theorem escapes_cons_cons : Escapes ('\\' :: c :: a) ↔ Escapes a := by
  refine escapes_append (p := ['\\', c]) ?_
  rw [← List.singleton_append, escapes_concat, not_and_not_right]
  exact fun _ => escapes_singleton.mpr rfl

-- ---------------------------------------------------------------------------
-- Delimiters
-- ---------------------------------------------------------------------------

/-- Nothing is left of the line. -/
def EndsLine (t : Text) : Prop := ∀ c ∈ t.head?, c = '\r' ∨ c = '\n'

/-- How a comment or literal is delimited, and the kinds it has. -/
structure Delimiters where
  opening : Text
  closing : Text
  /-- With this text between the two, the closing one counts. -/
  Admits : Text → Prop
  /-- What may be left of the script behind a literal that stays open. -/
  Leaves : Text → Prop
  closed : TokenKind
  unterminated : TokenKind

namespace Delimiters

/-- An open comment goes on to the end of the script. -/
def comment : Delimiters where
  opening := ['/', '*']
  closing := ['*', '/']
  Admits _ := True
  Leaves rest := rest = []
  closed := .blockComment
  unterminated := .unterminatedBlockComment

/-- An open string goes on to the end of its line, where it leaves a backslash
that has no character to take along. -/
def string (quote : Char) : Delimiters where
  opening := [quote]
  closing := [quote]
  Admits inside := ¬ Escapes inside ∧ ∀ c ∈ inside, c ≠ '\r' ∧ c ≠ '\n'
  Leaves rest := EndsLine rest ∨ ∃ later, rest = '\\' :: later ∧ EndsLine later
  closed := .string
  unterminated := .unterminatedString

/-- An open template goes on to the end of the script, where it leaves such a
backslash as well. -/
def template : Delimiters where
  opening := ['\x60']
  closing := ['\x60']
  Admits inside := ¬ Escapes inside
  Leaves rest := rest = [] ∨ rest = ['\\']
  closed := .template
  unterminated := .unterminatedTemplate

def all : List Delimiters := [comment, string '"', string '\'', template]

/-- Behind `inside` a closing delimiter counts, in the text `t` that follows
the opening one. -/
def ClosesAt (d : Delimiters) (t inside : Text) : Prop :=
  inside ++ d.closing <+: t ∧ d.Admits inside

/-- How the text behind an opening delimiter is read. -/
inductive Reads (d : Delimiters) : Text → Tail → Prop
  /-- Up to the first closing delimiter that counts. -/
  | closed (inside rest : Text) (admits : d.Admits inside)
    (first : ∀ other, d.ClosesAt (inside ++ (d.closing ++ rest)) other →
      inside.length ≤ other.length) :
    Reads d (inside ++ (d.closing ++ rest)) ⟨true, inside ++ d.closing, rest⟩
  /-- As far as the literal can go, if none counts. -/
  | unterminated (inside rest : Text) (never : ∀ other, ¬ d.ClosesAt (inside ++ rest) other)
    (leaves : d.Leaves rest) :
    Reads d (inside ++ rest) ⟨false, inside, rest⟩

variable {d : Delimiters}

theorem not_closesAt_nil (hd : d.closing ≠ []) (inside : Text) : ¬ d.ClosesAt [] inside :=
  fun h => List.append_ne_nil_of_right_ne_nil inside hd (List.prefix_nil.mp h.1)

/-- **A piece that is read first**: it neither closes the literal nor matters
to what closes it behind. -/
theorem Reads.append (h : d.Reads t tail) (hadmits : ∀ a, d.Admits (p ++ a) ↔ d.Admits a)
    (hlate : ∀ other, d.ClosesAt (p ++ t) other → p <+: other) :
    d.Reads (p ++ t) { tail with text := p ++ tail.text } := by
  have hiff (a : Text) : d.ClosesAt (p ++ t) (p ++ a) ↔ d.ClosesAt t a := by
    rw [ClosesAt, ClosesAt, List.append_assoc, List.prefix_append_right_inj, hadmits]
  cases h with
  | closed inside rest hinside hfirst =>
    have hclosed := Reads.closed (d := d) (p ++ inside) rest ((hadmits inside).mpr hinside)
    simp only [List.append_assoc] at hclosed ⊢
    refine hclosed fun other hother => ?_
    obtain ⟨a, rfl⟩ := hlate other hother
    have hle := hfirst a ((hiff a).mp hother)
    simp only [List.length_append]
    omega
  | unterminated inside rest hnever hleaves =>
    have hopen := Reads.unterminated (d := d) (p ++ inside) rest
    simp only [List.append_assoc] at hopen ⊢
    refine hopen (fun other hother => ?_) hleaves
    obtain ⟨a, rfl⟩ := hlate other hother
    exact hnever a ((hiff a).mp hother)

/-- One character that is read first. -/
theorem Reads.cons (h : d.Reads rest tail) (hadmits : ∀ a, d.Admits (c :: a) ↔ d.Admits a)
    (hopen : ¬ d.ClosesAt (c :: rest) []) : d.Reads (c :: rest) (tail.cons c) := by
  refine h.append (p := [c]) hadmits fun other hother => ?_
  cases other with
  | nil => exact absurd hother hopen
  | cons x other =>
    obtain ⟨rfl, -⟩ := List.cons_prefix_cons.mp hother.1
    exact ⟨other, rfl⟩

/-- A backslash that is read first, and the character that it takes along. -/
theorem Reads.escape (h : d.Reads rest tail)
    (hadmits : ∀ a, d.Admits ('\\' :: c :: a) ↔ d.Admits a) (hescaped : ¬ d.Admits ['\\'])
    (hopen : ¬ d.ClosesAt ('\\' :: c :: rest) []) :
    d.Reads ('\\' :: c :: rest) ((tail.cons c).cons '\\') := by
  refine h.append (p := ['\\', c]) hadmits fun other hother => ?_
  match other, hother with
  | [], hother => exact absurd hother hopen
  | [x], hother =>
    obtain ⟨rfl, -⟩ := List.cons_prefix_cons.mp hother.1
    exact absurd hother.2 hescaped
  | x :: y :: other, hother =>
    obtain ⟨rfl, hlater⟩ := List.cons_prefix_cons.mp hother.1
    obtain ⟨rfl, -⟩ := List.cons_prefix_cons.mp hlater
    exact ⟨other, rfl⟩

end Delimiters

open Delimiters

-- ---------------------------------------------------------------------------
-- Comments
-- ---------------------------------------------------------------------------

/-- A comment ends at **the first** `*/`. -/
theorem blockCommentTail_reads (t : Text) : comment.Reads t (blockCommentTail t) := by
  fun_induction blockCommentTail t with
  | case1 => exact .unterminated [] [] (not_closesAt_nil (List.cons_ne_nil _ _)) rfl
  | case2 rest => exact .closed [] rest trivial fun other _ => Nat.zero_le _
  | case3 c rest hslash ih =>
    refine ih.cons (fun a => Iff.rfl) fun hclose => ?_
    obtain ⟨later, hlater⟩ := hclose.1
    obtain ⟨rfl, rfl⟩ := List.cons.inj hlater
    exact hslash later rfl rfl

-- ---------------------------------------------------------------------------
-- Strings
-- ---------------------------------------------------------------------------

theorem endsLine_nil : EndsLine [] := fun _ hc => absurd hc (Option.not_mem_none _)

theorem endsLine_cons : EndsLine (c :: t) ↔ Text.isLineBreak c = true := by
  rw [EndsLine, List.head?_cons, Text.isLineBreak_iff]
  exact ⟨fun h => h c rfl, fun h x hx => Option.some.inj hx ▸ h⟩

/-- No quote closes a string behind the end of its line. -/
theorem EndsLine.not_closesAt (hline : quote ≠ '\r' ∧ quote ≠ '\n') (h : EndsLine t)
    (inside : Text) : ¬ (string quote).ClosesAt t inside := by
  rintro ⟨⟨later, rfl⟩, -, hinside⟩
  cases inside with
  | nil => exact (h quote rfl).elim hline.1 hline.2
  | cons x inside =>
    have hx := hinside x List.mem_cons_self
    exact (h x rfl).elim hx.1 hx.2

theorem EndsLine.not_closesAt_backslash (hescape : quote ≠ '\\') (h : EndsLine t)
    (inside : Text) : ¬ (string quote).ClosesAt ('\\' :: t) inside := by
  rintro ⟨hfront, hescapes, hinside⟩
  match inside, hfront with
  | [], hfront => exact hescape (List.cons_prefix_cons.mp hfront).1
  | [x], hfront =>
    obtain ⟨rfl, -⟩ := List.cons_prefix_cons.mp hfront
    exact hescapes (escapes_singleton.mpr rfl)
  | x :: y :: inside, hfront =>
    obtain ⟨later, rfl⟩ := (List.cons_prefix_cons.mp hfront).2
    have hy := hinside y (List.mem_cons_of_mem x List.mem_cons_self)
    exact (h y rfl).elim hy.1 hy.2

/-- Where a string may be left open, no quote closes it. -/
theorem string_reads_stop (hescape : quote ≠ '\\') (hline : quote ≠ '\r' ∧ quote ≠ '\n')
    (h : (string quote).Leaves t) : (string quote).Reads t (.stop t) := by
  refine .unterminated [] t (fun inside => ?_) h
  rcases h with hends | ⟨later, rfl, hends⟩
  · exact hends.not_closesAt hline inside
  · exact hends.not_closesAt_backslash hescape inside

theorem eq_nil_of_forall_ne_cons (h : ∀ c rest, t = c :: rest → False) : t = [] := by
  cases t with
  | nil => rfl
  | cons c rest => exact (h c rest rfl).elim

/-- A string ends at **the first quote on its line** that no backslash takes
along. -/
theorem stringTail_reads (hescape : quote ≠ '\\') (hline : quote ≠ '\r' ∧ quote ≠ '\n')
    (t : Text) : (string quote).Reads t (stringTail quote t) := by
  have hplain {c : Char} (hbreak : ¬ Text.isLineBreak c = true) (a : Text) :
      (∀ x ∈ c :: a, x ≠ '\r' ∧ x ≠ '\n') ↔ ∀ x ∈ a, x ≠ '\r' ∧ x ≠ '\n' := by
    rw [List.forall_mem_cons, and_iff_right (ne_of_not_isLineBreak hbreak)]
  fun_induction stringTail quote t with
  | case1 => exact string_reads_stop hescape hline (Or.inl endsLine_nil)
  | case2 c rest hbreak =>
    exact string_reads_stop hescape hline (Or.inr ⟨c :: rest, rfl, endsLine_cons.mpr hbreak⟩)
  | case3 c rest hbreak ih =>
    refine ih.escape (fun a => and_congr (not_congr escapes_cons_cons) ?_) ?_ ?_
    · rw [hplain (by decide), hplain hbreak]
    · exact fun h => h.1 (escapes_singleton.mpr rfl)
    · exact fun hclose => hescape (List.cons_prefix_cons.mp hclose.1).1
  | case4 rest _ =>
    exact .closed [] rest ⟨not_escapes_nil, List.forall_mem_nil _⟩ fun other _ => Nat.zero_le _
  | case5 c rest hnext hc hend =>
    refine string_reads_stop hescape hline ?_
    rw [Bool.or_eq_true, decide_eq_true_eq] at hend
    rcases hend with hbreak | rfl
    · exact Or.inl (endsLine_cons.mpr hbreak)
    · obtain rfl := eq_nil_of_forall_ne_cons fun x xs => hnext x xs rfl
      exact Or.inr ⟨[], rfl, endsLine_nil⟩
  | case6 c rest hnext hc hgo ih =>
    rw [Bool.or_eq_true, not_or, decide_eq_true_eq] at hgo
    refine ih.cons (fun a => and_congr (not_congr (escapes_cons hgo.2)) (hplain hgo.1 a)) ?_
    exact fun hclose => hc (List.cons_prefix_cons.mp hclose.1).1.symm

-- ---------------------------------------------------------------------------
-- Templates
-- ---------------------------------------------------------------------------

/-- A template ends at **the first backtick** that no backslash takes along. -/
theorem templateTail_reads (t : Text) : template.Reads t (templateTail t) := by
  fun_induction templateTail t with
  | case1 => exact .unterminated [] [] (not_closesAt_nil (List.cons_ne_nil _ _)) (Or.inl rfl)
  | case2 c rest ih =>
    refine ih.escape (fun a => not_congr escapes_cons_cons)
      (not_not.mpr (escapes_singleton.mpr rfl)) fun hclose => ?_
    exact absurd (List.cons_prefix_cons.mp hclose.1).1 (by decide)
  | case3 rest _ => exact .closed [] rest not_escapes_nil fun other _ => Nat.zero_le _
  | case4 rest hnext hc =>
    -- the backslash is the last character, so no backtick stands behind it
    obtain rfl := eq_nil_of_forall_ne_cons fun x xs => hnext x xs rfl
    refine .unterminated [] _ (fun inside hclose => ?_) (Or.inr rfl)
    cases inside with
    | nil => exact hc (List.cons_prefix_cons.mp hclose.1).1.symm
    | cons x inside =>
      exact List.append_ne_nil_of_right_ne_nil inside (List.cons_ne_nil _ _)
        (List.prefix_nil.mp (List.cons_prefix_cons.mp hclose.1).2)
  | case5 c rest _ hc hplain ih =>
    refine ih.cons (fun a => not_congr (escapes_cons hplain)) fun hclose => ?_
    exact hc (List.cons_prefix_cons.mp hclose.1).1.symm

-- ---------------------------------------------------------------------------
-- Scripts
-- ---------------------------------------------------------------------------

/-- Only an operator can turn out to open a regular expression. -/
theorem nextLexeme_of_ne_punct (h : (Lexeme.scan c rest).kind ≠ .punct) (regexAllowed : Bool) :
    nextLexeme regexAllowed c rest = Lexeme.scan c rest := by
  simp only [nextLexeme]
  rw [beq_false_of_ne h, Bool.and_false, Bool.false_and, if_neg Bool.false_ne_true]

theorem nextLexeme_delimited {closed unterminated : TokenKind} {delimiter : Text}
    (h : Lexeme.scan c rest = .delimited closed unterminated delimiter tail)
    (hclosed : closed ≠ .punct) (hopen : unterminated ≠ .punct) (regexAllowed : Bool) :
    nextLexeme regexAllowed c rest = .delimited closed unterminated delimiter tail := by
  rw [nextLexeme_of_ne_punct _ regexAllowed, h]
  rw [h]
  rcases kind_delimited closed unterminated delimiter tail with hk | hk
  · rwa [hk]
  · rwa [hk]

/-- Behind an opening delimiter its own reader goes on, whatever a slash would
mean there. -/
theorem exists_reads_of_opening {d : Delimiters} (hd : d ∈ all) (regexAllowed : Bool)
    (h : d.opening ++ t = c :: rest) :
    ∃ tail, d.Reads t tail ∧
      nextLexeme regexAllowed c rest = .delimited d.closed d.unterminated d.opening tail := by
  simp only [all, List.mem_cons, List.not_mem_nil, or_false] at hd
  rcases hd with rfl | rfl | rfl | rfl
  all_goals
    obtain ⟨rfl, rfl⟩ := List.cons.inj h
  · exact ⟨_, blockCommentTail_reads t,
      nextLexeme_delimited rfl (by decide) (by decide) regexAllowed⟩
  · exact ⟨_, stringTail_reads (by decide) (by decide) t,
      nextLexeme_delimited rfl (by decide) (by decide) regexAllowed⟩
  · exact ⟨_, stringTail_reads (by decide) (by decide) t,
      nextLexeme_delimited rfl (by decide) (by decide) regexAllowed⟩
  · exact ⟨_, templateTail_reads t,
      nextLexeme_delimited rfl (by decide) (by decide) regexAllowed⟩

/-- The texts of a delimited kind start with an opening delimiter of their
sort. -/
theorem exists_opening_of_mem_textsOf {d : Delimiters} (hd : d ∈ all) {k : TokenKind}
    (hkind : k = d.closed ∨ k = d.unterminated) (h : t ∈ Lexicon.textsOf k) :
    ∃ d' ∈ all, d'.closed = d.closed ∧ d'.opening <+: t := by
  cases t with
  | nil => exact absurd h nil_not_mem_textsOf
  | cons c t =>
    have hquoted (hkind : k = .string ∨ k = .unterminatedString) :
        ∃ d' ∈ all, d'.closed = .string ∧ d'.opening <+: c :: t := by
      have hc : c = '"' ∨ c = '\'' := by
        rcases hkind with rfl | rfl
        all_goals
          simp [Lexicon.mem_textsOf, Lexicon.rules] at h
          exact h.imp And.left And.left
      rcases hc with rfl | rfl
      · exact ⟨string '"', by simp [all], rfl, t, rfl⟩
      · exact ⟨string '\'', by simp [all], rfl, t, rfl⟩
    simp only [all, List.mem_cons, List.not_mem_nil, or_false] at hd
    rcases hd with rfl | rfl | rfl | rfl
    · refine ⟨comment, by simp [all], rfl, ?_⟩
      rcases hkind with rfl | rfl
      all_goals
        simp [Lexicon.mem_textsOf, Lexicon.rules, comment] at h
        obtain ⟨rfl, r, -, rfl⟩ := h
        exact ⟨r, rfl⟩
    · exact hquoted hkind
    · exact hquoted hkind
    · refine ⟨template, by simp [all], rfl, ?_⟩
      rcases hkind with rfl | rfl
      all_goals
        simp [Lexicon.mem_textsOf, Lexicon.rules, template] at h
        obtain ⟨rfl, -⟩ := h
        exact ⟨t, rfl⟩

theorem delimited_not_mem :
    ∀ d ∈ all, ∀ k, k = d.closed ∨ k = d.unterminated →
      k ∉ [.unknown, .regex, .unterminatedRegex] := by
  intro d hd k hk
  have hkinds : ∀ d ∈ all, d.closed ∉ [.unknown, .regex, .unterminatedRegex] ∧
      d.unterminated ∉ [.unknown, .regex, .unterminatedRegex] := by decide
  rcases hk with rfl | rfl
  · exact (hkinds d hd).1
  · exact (hkinds d hd).2

/-- A comment, string or template is unterminated **exactly if no closing
delimiter counts** behind its opening one, and it ends at the first that
counts otherwise.  The tokens of these kinds are those that start with an
opening delimiter. -/
theorem unterminated_exactly_if_unclosed (script : Text) (t : Token) (ht : t ∈ tokenize script) :
    ∃ before after, script = before ++ (t.text ++ after) ∧ t.span.start = before.byteLength ∧
      (∀ d ∈ all, d.opening <+: t.text → ∃ r, t.text ++ after = d.opening ++ r ∧
        ((∃ inside, d.ClosesAt r inside ∧
            (∀ other, d.ClosesAt r other → inside.length ≤ other.length) ∧
            t.kind = d.closed ∧ t.text = d.opening ++ (inside ++ d.closing)) ∨
          (∀ inside, ¬ d.ClosesAt r inside) ∧ t.kind = d.unterminated ∧ d.Leaves after)) ∧
      ∀ d ∈ all, t.kind = d.closed ∨ t.kind = d.unterminated →
        ∃ d' ∈ all, d'.closed = d.closed ∧ d'.opening <+: t.text := by
  obtain ⟨before, regexAllowed, c, cs, rfl, hkind, htext, hspan⟩ := exists_nextLexeme_of_mem ht
  have hsplit : t.text ++ (nextLexeme regexAllowed c cs).rest = c :: cs := by
    rw [htext, nextLexeme_text_append_rest]
  refine ⟨before, (nextLexeme regexAllowed c cs).rest, by rw [hsplit], by rw [hspan], ?_, ?_⟩
  · intro d hd hopening
    obtain ⟨r, hr⟩ := hopening.trans ⟨_, hsplit⟩
    obtain ⟨tail, hreads, hlexeme⟩ := exists_reads_of_opening hd regexAllowed hr
    refine ⟨r, hsplit.trans hr.symm, ?_⟩
    rw [hkind, htext, hlexeme]
    cases hreads with
    | closed inside rest hadmits hfirst =>
      exact Or.inl ⟨inside, ⟨⟨rest, List.append_assoc _ _ _⟩, hadmits⟩, hfirst, rfl, rfl⟩
    | unterminated inside rest hnever hleaves => exact Or.inr ⟨hnever, rfl, hleaves⟩
  · intro d hd hdelimited
    rw [hkind] at hdelimited
    rw [htext]
    exact exists_opening_of_mem_textsOf hd hdelimited
      (nextLexeme_mem_textsOf (delimited_not_mem d hd _ hdelimited))

/-- A comment with a slash right behind its opening delimiter, and a string
whose second quote is escaped. -/
def escapedQuote : Text := ['/', '*', '/', '*', '*', '/', '"', '\\', '"', '\\', '\n', '"']

/-- No quote closes the string, and it leaves the backslash at the end of its
line. -/
theorem unterminated_exactly_if_unclosed_escapedQuote :
    ∃ t ∈ tokenize escapedQuote, t.kind = .unterminatedString ∧ t.text = ['"', '\\', '"'] ∧
      ∃ before after r, escapedQuote = before ++ (t.text ++ after) ∧ before.byteLength = 6 ∧
        t.text ++ after = '"' :: r ∧ (∀ inside, ¬ (string '"').ClosesAt r inside) ∧
        (string '"').Leaves after := by
  have hmem : ⟨.unterminatedString, ['"', '\\', '"'], 6, 9⟩ ∈ tokenize escapedQuote := by
    decide +kernel
  obtain ⟨before, after, hscript, hstart, hdelimited, -⟩ :=
    unterminated_exactly_if_unclosed escapedQuote _ hmem
  obtain ⟨r, hr, hends⟩ := hdelimited (string '"') (by simp [all]) ⟨['\\', '"'], rfl⟩
  have hopen := hends.resolve_left fun ⟨_, _, _, hclosed, _⟩ => absurd hclosed (by decide)
  exact ⟨_, hmem, rfl, rfl, before, after, r, hscript, hstart.symm, hr, hopen.1, hopen.2.2⟩

end FenceFacts
