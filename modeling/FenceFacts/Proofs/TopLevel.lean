import FenceFacts.Proofs.Brackets
import FenceFacts.Proofs.Lexicon.Lexemes

/-!
# FenceFacts — where top-level statements start

The search for statements carries a depth and a flag from token to token.
Looked at from a single token, neither is needed: a statement starts there if
the brackets before it pair up and what it comes behind is nothing, a `;`, a
`}` or a line end.  Which brackets were open further back, and what the flag
was at that time, makes no difference.

A statement is told by the significant tokens from its first one on.  The
index of that token is then no longer needed either.

## Results

* `isStart_iff`            — where the search finds a statement.
* `map_drop_statementStarts` — statements by index are those by their tokens.
* `pairwise_statementsFrom` — a later statement is a part of an earlier one.
-/

namespace FenceFacts

open Lexicon

-- ---------------------------------------------------------------------------
-- Brackets by their texts
-- ---------------------------------------------------------------------------

/-- No rule but its own matches the text of a bracket. -/
theorem kind_eq_of_edge? {script : Text} {t : Token} {e : Edge} {k : TokenKind}
    (h : t ∈ tokenize script) (he : t.edge? = some e) (htext : t.text ∈ textsOf k) :
    t.kind = k := by
  have hkinds : t.kind ≠ .regex ∧ t.kind ≠ .unterminatedRegex ∧ t.kind ≠ .unknown := by
    rw [Token.edge?] at he
    refine ⟨?_, ?_, ?_⟩
    all_goals
      intro hkind
      rw [hkind] at he
      cases he
  obtain ⟨before, regexAllowed, c, cs, -, hkind, htext', -⟩ := exists_nextLexeme_of_mem h
  rw [hkind] at hkinds ⊢
  rw [htext'] at htext
  rcases nextLexeme_followsRules regexAllowed c cs with (hlong | ⟨hunknown, -⟩) | ⟨hregex, -⟩
  · exact kind_unique hlong.mem htext
  · exact absurd hunknown hkinds.2.2
  · exact (hregex.elim hkinds.1 hkinds.2.1).elim

/-- What reads as something else is no bracket. -/
theorem edge?_eq_none_of_text_mem {script : Text} {t : Token} {k : TokenKind}
    (h : t ∈ tokenize script) (htext : t.text ∈ textsOf k)
    (hk : ∀ b, k ≠ .opening b ∧ k ≠ .closing b) : t.edge? = none := by
  by_contra hsome
  obtain ⟨e, he⟩ := Option.ne_none_iff_exists'.mp hsome
  rw [Token.edge?, kind_eq_of_edge? h he htext] at he
  split at he
  · next b => exact (hk b).1 rfl
  · next b => exact (hk b).2 rfl
  · cases he

theorem edge?_eq_none_of_reads_semicolon {script : Text} {t : Token} (h : t ∈ tokenize script)
    (hreads : t.reads ";" = true) : t.edge? = none := by
  refine edge?_eq_none_of_text_mem h (k := .punct) ?_ fun b => ⟨nofun, nofun⟩
  rw [beq_iff_eq.mp hreads]
  simp [mem_textsOf, rules, isPunct]

-- ---------------------------------------------------------------------------
-- Statements by what is before them
-- ---------------------------------------------------------------------------

/-- Behind these tokens a statement can begin: they are only blanks and
comments, or the last one that is not is a `;` or a `}` or has a line end
behind it. -/
def CanBegin (before : List Token) : Prop :=
  significant before = [] ∨
    ∃ earlier last gap, before = earlier ++ last :: gap ∧ last.isSignificant = true ∧
      significant gap = [] ∧
      (last.reads ";" = true ∨ last.kind = .closing .curly ∨ ∃ u ∈ gap, u.kind = .newline)

/-- A top-level statement starts with this token. -/
structure StartsStatement (before : List Token) (t : Token) : Prop where
  significant : t.isSignificant = true
  /-- No bracket is open. -/
  topLevel : Balanced (edges before)
  begins : CanBegin before

theorem exists_last_significant (tokens : List Token) :
    significant tokens = [] ∨ ∃ earlier last gap, tokens = earlier ++ last :: gap ∧
      last.isSignificant = true ∧ significant gap = [] := by
  induction tokens with
  | nil => exact Or.inl rfl
  | cons t tokens ih =>
    rcases ih with hnone | ⟨earlier, last, gap, rfl, hlast, hgap⟩
    · by_cases h : t.isSignificant = true
      · exact Or.inr ⟨[], t, tokens, rfl, h, hnone⟩
      · exact Or.inl ((significant_cons_of_neg h tokens).trans hnone)
    · exact Or.inr ⟨t :: earlier, last, gap, rfl, hlast, hgap⟩

section Begins

variable {before : List Token} {t : Token}

theorem canBegin_concat_of_isSignificant (h : t.isSignificant = true) :
    CanBegin (before ++ [t]) ↔ t.reads ";" = true ∨ t.kind = .closing .curly := by
  constructor
  · rintro (hnone | ⟨earlier, last, gap, hsplit, -, hgap, hlast⟩)
    · rw [significant_append, significant_cons_of_pos h] at hnone
      exact absurd (List.append_eq_nil_iff.mp hnone).2 (List.cons_ne_nil _ _)
    · -- what is behind the last significant token is empty, as this one is significant
      rcases List.eq_nil_or_concat' gap with rfl | ⟨gap, u, rfl⟩
      · obtain ⟨-, hlast'⟩ := List.append_inj' hsplit rfl
        obtain rfl := List.singleton_inj.mp hlast'
        exact hlast.imp_right fun h => h.resolve_right fun ⟨u, hu, _⟩ => absurd hu List.not_mem_nil
      · rw [← List.cons_append, ← List.append_assoc] at hsplit
        obtain ⟨-, hu⟩ := List.append_inj' hsplit rfl
        obtain rfl := List.singleton_inj.mp hu
        rw [significant_append, significant_cons_of_pos h] at hgap
        exact absurd (List.append_eq_nil_iff.mp hgap).2 (List.cons_ne_nil _ _)
  · intro hlast
    exact Or.inr ⟨before, t, [], rfl, h, rfl, hlast.imp_right Or.inl⟩

theorem canBegin_concat_of_not_isSignificant (h : ¬ t.isSignificant = true) :
    CanBegin (before ++ [t]) ↔ CanBegin before ∨ t.kind = .newline := by
  have hsame (ts : List Token) : significant (ts ++ [t]) = significant ts := by
    rw [significant_append, significant_cons_of_neg h]
    exact List.append_nil _
  constructor
  · rintro (hnone | ⟨earlier, last, gap, hsplit, hlast, hgap, hends⟩)
    · exact Or.inl (Or.inl (hsame before ▸ hnone))
    · rcases List.eq_nil_or_concat' gap with rfl | ⟨gap, u, rfl⟩
      · obtain ⟨-, hlast'⟩ := List.append_inj' hsplit rfl
        obtain rfl := List.singleton_inj.mp hlast'
        exact absurd hlast h
      · rw [← List.cons_append, ← List.append_assoc] at hsplit
        obtain ⟨rfl, hu⟩ := List.append_inj' hsplit rfl
        obtain rfl := List.singleton_inj.mp hu
        rw [hsame] at hgap
        rcases hends with hsemicolon | hcurly | ⟨u, hu, hnewline⟩
        · exact Or.inl (Or.inr ⟨earlier, last, gap, rfl, hlast, hgap, Or.inl hsemicolon⟩)
        · exact Or.inl (Or.inr ⟨earlier, last, gap, rfl, hlast, hgap, Or.inr (Or.inl hcurly)⟩)
        · rcases List.mem_append.mp hu with hu | hu
          · exact Or.inl (Or.inr ⟨earlier, last, gap, rfl, hlast, hgap,
              Or.inr (Or.inr ⟨u, hu, hnewline⟩)⟩)
          · exact Or.inr (List.mem_singleton.mp hu ▸ hnewline)
  · rintro ((hnone | ⟨earlier, last, gap, rfl, hlast, hgap, hends⟩) | hnewline)
    · exact Or.inl ((hsame before).trans hnone)
    · refine Or.inr ⟨earlier, last, gap ++ [t], ?_, hlast, (hsame gap).trans hgap, ?_⟩
      · rw [List.append_assoc, List.cons_append]
      · refine hends.imp_right (Or.imp_right ?_)
        rintro ⟨u, hu, hnewline⟩
        exact ⟨u, List.mem_append_left [t] hu, hnewline⟩
    · -- the line end is behind the last significant token, if there is one
      rcases exists_last_significant before with hnone | ⟨earlier, last, gap, rfl, hlast, hgap⟩
      · exact Or.inl ((hsame before).trans hnone)
      · refine Or.inr ⟨earlier, last, gap ++ [t], ?_, hlast, (hsame gap).trans hgap, ?_⟩
        · rw [List.append_assoc, List.cons_append]
        · exact Or.inr (Or.inr ⟨t, List.mem_append_right gap List.mem_cons_self, hnewline⟩)

/-- Whether a statement can begin depends on **the last significant token**
and on what is behind it. -/
theorem canBegin_behind_iff {earlier gap : List Token} {last : Token}
    (hlast : last.isSignificant = true) (hgap : significant gap = []) :
    CanBegin (earlier ++ last :: gap) ↔
      last.reads ";" = true ∨ last.kind = .closing .curly ∨ ∃ u ∈ gap, u.kind = .newline := by
  induction gap using List.reverseRecOn with
  | nil =>
    rw [canBegin_concat_of_isSignificant hlast]
    exact or_congr_right (or_iff_left fun ⟨u, hu, _⟩ => absurd hu List.not_mem_nil).symm
  | append_singleton gap u ih =>
    rw [significant_append, List.append_eq_nil_iff] at hgap
    have hu : ¬ u.isSignificant = true := fun h => by
      rw [significant_cons_of_pos h] at hgap
      exact absurd hgap.2 (List.cons_ne_nil _ _)
    rw [← List.cons_append, ← List.append_assoc, canBegin_concat_of_not_isSignificant hu,
      ih hgap.1, or_assoc, or_assoc]
    simp only [List.mem_append, List.mem_singleton, or_and_right, exists_or, exists_eq_left]

/-- Where none of the last significant tokens is a `;` or a `}`, a statement
begins only **behind a line end**. -/
theorem exists_newline_of_canBegin {earlier between : List Token} {t : Token}
    (ht : t.isSignificant = true)
    (hnone : ∀ u ∈ significant (t :: between), ¬ u.reads ";" = true ∧ u.kind ≠ .closing .curly)
    (h : CanBegin (earlier ++ t :: between)) :
    ∃ front last gap, t :: between = front ++ last :: gap ∧ last.isSignificant = true ∧
      significant gap = [] ∧ ∃ u ∈ gap, u.kind = .newline := by
  rcases exists_last_significant (t :: between) with hnil | ⟨front, last, gap, hsplit, hlast, hgap⟩
  · rw [significant_cons_of_pos ht] at hnil
    cases hnil
  · have hmem : last ∈ significant (t :: between) := by
      rw [hsplit, significant_append, significant_cons_of_pos hlast]
      exact List.mem_append_right _ List.mem_cons_self
    rw [hsplit, ← List.append_assoc, canBegin_behind_iff hlast hgap] at h
    rcases h with hsemicolon | hcurly | hnewline
    · exact absurd hsemicolon (hnone last hmem).1
    · exact absurd hcurly (hnone last hmem).2
    · exact ⟨front, last, gap, hsplit, hlast, hgap, hnewline⟩

end Begins

-- ---------------------------------------------------------------------------
-- What the search carries
-- ---------------------------------------------------------------------------

namespace StatementSearch

variable {script : Text} {before : List Token} {t : Token}

theorem behind_concat (before : List Token) (t : Token) :
    behind (before ++ [t]) = (behind before).step t := by
  rw [behind, List.foldl_append]
  rfl

/-- The depth is changed by brackets alone. -/
theorem depth_step (s : StatementSearch) (t : Token) :
    (s.step t).depth =
      match t.edge? with
      | some (.opening _) => s.depth + 1
      | some (.closing _) => s.depth - 1
      | none => s.depth := by
  by_cases h : t.isSignificant = true
  · rw [step_of_isSignificant h, pass, Token.edge?]
    cases t.kind <;> rfl
  · rw [depth_step_of_not_isSignificant h, edge?_eq_none_of_not_isSignificant h]

/-- The depth is **the number of brackets that are open**. -/
theorem depth_foldl {s : StatementSearch} {unclosed unclosed' : List Bracket}
    (hdepth : s.depth = unclosed.length) {tokens : List Token}
    (h : unclosedBehind? unclosed (edges tokens) = some unclosed') :
    (tokens.foldl step s).depth = unclosed'.length := by
  induction tokens generalizing s unclosed with
  | nil =>
    obtain rfl := Option.some.inj h
    exact hdepth
  | cons t tokens ih =>
    rw [List.foldl_cons]
    cases he : t.edge? with
    | none =>
      rw [edges_cons_of_none he] at h
      exact ih (by rw [depth_step, he, hdepth]) h
    | some e =>
      rw [edges_cons_of_some he] at h
      cases e with
      | opening b => exact ih (by rw [depth_step, he, hdepth, List.length_cons]) h
      | closing b =>
        obtain ⟨outer, rfl, houter⟩ := exists_of_unclosedBehind?_closing h
        refine ih ?_ houter
        rw [depth_step, he, hdepth]
        rfl

theorem depth_behind_eq_zero_iff (h : Completable (edges before)) :
    (behind before).depth = 0 ↔ Balanced (edges before) := by
  obtain ⟨unclosed, hunclosed⟩ := completable_iff.mp h
  have hdepth : (behind before).depth = unclosed.length := depth_foldl rfl hunclosed
  rw [hdepth, balanced_iff, hunclosed, List.length_eq_zero_iff, Option.some.injEq]

/-- Where no bracket is open, the flag tells **what is before**, however the
search got there. -/
theorem pending_behind_iff (hmem : ∀ u ∈ before, u ∈ tokenize script)
    (hdepth : (behind before).depth = 0) :
    (behind before).pending = true ↔ CanBegin before := by
  induction before using List.reverseRecOn with
  | nil => exact iff_of_true rfl (Or.inl rfl)
  | append_singleton before t ih =>
    rw [behind_concat] at hdepth ⊢
    by_cases h : t.isSignificant = true
    · have hsemicolon : t.reads ";" = true → t.edge? = none :=
        edge?_eq_none_of_reads_semicolon (hmem t (List.mem_append_right before List.mem_cons_self))
      rw [canBegin_concat_of_isSignificant h]
      rw [step_of_isSignificant h, pass] at hdepth ⊢
      rw [Token.edge?] at hsemicolon
      cases hkind : t.kind with
      | opening b =>
        rw [hkind] at hdepth
        exact absurd hdepth (Nat.succ_ne_zero _)
      | closing b =>
        rw [hkind] at hdepth hsemicolon
        have hreads : ¬ t.reads ";" = true := fun h => Option.some_ne_none _ (hsemicolon h)
        have hdepth : (behind before).depth - 1 = 0 := hdepth
        rw [or_iff_right hreads]
        simp only [hdepth, beq_self_eq_true, Bool.true_and, beq_iff_eq, TokenKind.closing.injEq]
      | _ =>
        rw [hkind] at hdepth
        have hdepth : (behind before).depth = 0 := hdepth
        simp only [hdepth, beq_self_eq_true, Bool.true_and, reduceCtorEq, or_false]
    · rw [depth_step_of_not_isSignificant h] at hdepth
      have ih := ih (fun u hu => hmem u (List.mem_append_left [t] hu)) hdepth
      rw [canBegin_concat_of_not_isSignificant h, ← ih, step, if_neg h]
      split
      · next hnewline => simp only [hdepth, beq_self_eq_true, Bool.or_true, hnewline, or_true]
      · next hother => rw [or_iff_left hother]

theorem canBegin_of_isStart (hmem : ∀ u ∈ before, u ∈ tokenize script)
    (h : (behind before).isStart t = true) : CanBegin before := by
  rw [isStart, Bool.and_eq_true, Bool.and_eq_true, beq_iff_eq] at h
  obtain ⟨-, hdepth, hpending⟩ := h
  exact (pending_behind_iff hmem hdepth).mp hpending

/-- The search finds **the top-level statements**, as long as every closing
bracket matches. -/
theorem isStart_iff (hmem : ∀ u ∈ before, u ∈ tokenize script)
    (hcompletable : Completable (edges before)) :
    (behind before).isStart t = true ↔ StartsStatement before t := by
  rw [isStart, Bool.and_eq_true, Bool.and_eq_true, beq_iff_eq]
  constructor
  · rintro ⟨hsignificant, hdepth, hpending⟩
    exact ⟨hsignificant, (depth_behind_eq_zero_iff hcompletable).mp hdepth,
      (pending_behind_iff hmem hdepth).mp hpending⟩
  · rintro ⟨hsignificant, hbalanced, hbegins⟩
    have hdepth := (depth_behind_eq_zero_iff hcompletable).mpr hbalanced
    exact ⟨hsignificant, hdepth, (pending_behind_iff hmem hdepth).mpr hbegins⟩

/-- In a script whose brackets pair up it finds them at every token. -/
theorem isStart_iff_of_balanced {after : List Token} (h : Balanced (edges (tokenize script)))
    (hsplit : tokenize script = before ++ t :: after) :
    (behind before).isStart t = true ↔ StartsStatement before t := by
  have hmem : ∀ u ∈ before, u ∈ tokenize script := fun u hu => by
    rw [hsplit]
    exact List.mem_append_left _ hu
  have hall := h.completable
  rw [hsplit, edges_append] at hall
  exact isStart_iff hmem hall.of_append

-- ---------------------------------------------------------------------------
-- Statements by their tokens
-- ---------------------------------------------------------------------------

/-- The statements that the search finds from here on, each by all significant
tokens from its first one on. -/
def statementsFrom (s : StatementSearch) : List Token → List (List Token)
  | [] => []
  | t :: ts =>
    (if s.isStart t then [significant (t :: ts)] else []) ++ (s.step t).statementsFrom ts

variable {s : StatementSearch} {tokens w : List Token}

/-- The index of a statement leads to its tokens. -/
theorem map_drop_starts (front : List Token) (h : s.index = (significant front).length) :
    (s.starts tokens).map (fun i => (significant (front ++ tokens)).drop i) =
      s.statementsFrom tokens := by
  induction tokens generalizing s front with
  | nil => rfl
  | cons t ts ih =>
    have hindex : (s.step t).index = (significant (front ++ [t])).length := by
      rw [← List.singleton_append, significant_append, List.length_append, ← h]
      exact index_foldl s [t]
    have hsplit : front ++ t :: ts = front ++ [t] ++ ts := by
      rw [List.append_assoc, List.singleton_append]
    have hdrop : (significant (front ++ t :: ts)).drop s.index = significant (t :: ts) := by
      rw [h, significant_append, List.drop_left]
    rw [starts_cons, List.map_append, statementsFrom, ← ih (front ++ [t]) hindex, ← hsplit]
    split
    · rw [List.map_singleton, hdrop]
    · rfl

theorem mem_statementsFrom_iff :
    w ∈ s.statementsFrom tokens ↔
      ∃ before t after, tokens = before ++ t :: after ∧
        (before.foldl step s).isStart t = true ∧ w = significant (t :: after) := by
  induction tokens generalizing s with
  | nil => exact iff_of_false List.not_mem_nil fun ⟨before, t, after, h, _⟩ =>
      absurd h.symm (List.append_ne_nil_of_right_ne_nil before (List.cons_ne_nil t after))
  | cons t ts ih =>
    rw [statementsFrom, List.mem_append, ih]
    constructor
    · rintro (hhere | ⟨before, u, after, rfl, hstart, hw⟩)
      · split at hhere
        · next hstart => exact ⟨[], t, ts, rfl, hstart, List.mem_singleton.mp hhere⟩
        · exact absurd hhere List.not_mem_nil
      · exact ⟨t :: before, u, after, rfl, hstart, hw⟩
    · rintro ⟨before, u, after, hsplit, hstart, hw⟩
      cases before with
      | nil =>
        obtain ⟨rfl, rfl⟩ := List.cons.inj hsplit
        have hstart : s.isStart t = true := hstart
        rw [if_pos hstart]
        exact Or.inl (List.mem_singleton.mpr hw)
      | cons _ before =>
        obtain ⟨rfl, rfl⟩ := List.cons.inj hsplit
        exact Or.inr ⟨before, u, after, rfl, hstart, hw⟩

/-- What is true of any two statements in order is true of **all of them in
order**. -/
theorem pairwise_statementsFrom {R : List Token → List Token → Prop}
    (h : ∀ before t between u after, tokens = before ++ t :: (between ++ u :: after) →
      (before.foldl step s).isStart t = true →
      ((before ++ t :: between).foldl step s).isStart u = true →
        R (significant (t :: (between ++ u :: after))) (significant (u :: after))) :
    (s.statementsFrom tokens).Pairwise R := by
  induction tokens generalizing s with
  | nil => exact List.Pairwise.nil
  | cons t ts ih =>
    have hlater : ((s.step t).statementsFrom ts).Pairwise R :=
      ih fun before u between v after hsplit hu hv =>
        h (t :: before) u between v after (congrArg (t :: ·) hsplit) hu hv
    rw [statementsFrom]
    split
    · next hstart =>
      refine List.pairwise_cons.mpr ⟨fun w hw => ?_, hlater⟩
      obtain ⟨between, u, after, rfl, hu, rfl⟩ := mem_statementsFrom_iff.mp hw
      exact h [] t between u after rfl hstart hu
    · exact hlater

/-- The first statement of a sort is found **before all others**. -/
theorem exists_first_of_filterMap_statementsFrom {α : Type} {f : List Token → Option α} {x : α}
    {xs : List α} (h : (s.statementsFrom tokens).filterMap f = x :: xs) :
    ∃ before t after, tokens = before ++ t :: after ∧ (before.foldl step s).isStart t = true ∧
      f (significant (t :: after)) = some x ∧
      ∀ before' t' after', tokens = before' ++ t' :: after' →
        (before'.foldl step s).isStart t' = true → f (significant (t' :: after')) ≠ none →
          before.length ≤ before'.length := by
  induction tokens generalizing s with
  | nil => cases h
  | cons t ts ih =>
    rw [statementsFrom, List.filterMap_append] at h
    by_cases hhere : s.isStart t = true ∧ f (significant (t :: ts)) ≠ none
    · obtain ⟨y, hy⟩ := Option.ne_none_iff_exists'.mp hhere.2
      rw [if_pos hhere.1, List.filterMap_cons_some hy] at h
      obtain ⟨rfl, -⟩ := List.cons.inj h
      exact ⟨[], t, ts, rfl, hhere.1, hy, fun _ _ _ _ _ _ => Nat.zero_le _⟩
    · have hnone : (if s.isStart t then [significant (t :: ts)] else []).filterMap f = [] := by
        split
        · next hstart =>
          exact List.filterMap_cons_none (not_not.mp fun hsome => hhere ⟨hstart, hsome⟩)
        · rfl
      rw [hnone, List.nil_append] at h
      obtain ⟨before, u, after, rfl, hstart, hu, hfirst⟩ := ih h
      refine ⟨t :: before, u, after, rfl, hstart, hu, fun before' t' after' hsplit hstart' ht' => ?_⟩
      cases before' with
      | nil =>
        obtain ⟨rfl, rfl⟩ := List.cons.inj hsplit
        exact absurd ⟨hstart', ht'⟩ hhere
      | cons _ before' =>
        rw [List.cons_append] at hsplit
        obtain ⟨rfl, hrest⟩ := List.cons.inj hsplit
        exact Nat.succ_le_succ (hfirst before' t' after' hrest hstart' ht')

end StatementSearch

-- ---------------------------------------------------------------------------
-- The statements of a script
-- ---------------------------------------------------------------------------

/-- The top-level statements of a script, each by all significant tokens from
its first one on. -/
def statements (tokens : List Token) : List (List Token) :=
  StatementSearch.statementsFrom {} tokens

theorem map_drop_statementStarts (tokens : List Token) :
    (statementStarts tokens).map (fun i => (significant tokens).drop i) = statements tokens :=
  StatementSearch.map_drop_starts (s := {}) [] rfl

theorem declarations_eq (tokens : List Token) :
    declarations tokens = (statements tokens).filterMap declarationAt? := by
  rw [← map_drop_statementStarts, List.filterMap_map]
  rfl

/-- The first token of a module statement. -/
def moduleStatement? (w : List Token) : Option Token :=
  if isModuleStatement w then w.head? else none

theorem moduleStatements_eq (tokens : List Token) :
    moduleStatements tokens = (statements tokens).filterMap moduleStatement? := by
  rw [← map_drop_statementStarts, List.filterMap_map, moduleStatements]
  refine List.filterMap_congr fun i _ => ?_
  rw [Function.comp_apply, moduleStatement?, List.head?_drop]

end FenceFacts
