import FenceFacts.Proofs.Acceptance
import FenceFacts.Proofs.Tiling

/-!
# FenceFacts — the first error of a script

The tokens of a script are gone through once for each sort of error, and each
time from the start.  So the error that is reported is the first of its sort,
but an error of a sort that is looked for later can stand before it.

## Results

* `analyze_error_is_first` — no error of the same sort is further up.
* `earlier_mismatch_passed_over` — one of another sort can be.
-/

namespace FenceFacts

variable {script : Text} {before after : List Token} {t u : Token}

theorem start_lt_of_mem_before (hsplit : tokenize script = before ++ t :: after)
    (hu : u ∈ before) : u.span.start < t.span.start := by
  have horder := pairwise_tokenize script
  have hmem : u ∈ tokenize script := by
    rw [hsplit]
    exact List.mem_append_left _ hu
  rw [hsplit] at horder
  have hbehind := (List.pairwise_append.mp horder).2.2 u hu t List.mem_cons_self
  exact Nat.lt_of_lt_of_le (liesIn_of_mem_tokenize hmem).start_lt_stop hbehind

theorem start_le_of_mem_behind (hsplit : tokenize script = before ++ t :: after)
    (hu : u ∈ t :: after) : t.span.start ≤ u.span.start := by
  rcases List.mem_cons.mp hu with rfl | hafter
  · exact Nat.le_refl _
  · have hsplit' : tokenize script = (before ++ [t]) ++ after := by
      rw [hsplit, List.append_assoc, List.singleton_append]
    obtain ⟨front, back, rfl⟩ := List.append_of_mem hafter
    rw [← List.append_assoc] at hsplit'
    refine Nat.le_of_lt (start_lt_of_mem_before hsplit' ?_)
    exact List.mem_append_left front (List.mem_append_right before List.mem_cons_self)

/-- A token that is not before another one starts no earlier. -/
theorem start_le_of_length_le {before' after' : List Token} {t' : Token}
    (hsplit : tokenize script = before ++ t :: after)
    (hsplit' : tokenize script = before' ++ t' :: after')
    (hlength : before.length ≤ before'.length) : t.span.start ≤ t'.span.start := by
  obtain ⟨between, rfl⟩ := List.prefix_of_prefix_length_le ⟨_, hsplit.symm⟩ ⟨_, hsplit'.symm⟩ hlength
  refine start_le_of_mem_behind hsplit ?_
  have hbehind : t :: after = between ++ t' :: after' :=
    List.append_cancel_left (hsplit.symm.trans (hsplit'.trans (List.append_assoc _ _ _)))
  rw [hbehind]
  exact List.mem_append_right between List.mem_cons_self

/-- The error of a script is **the first of its sort**: no token that offends
starts before it, and if none offends, no closing bracket that fails to match
starts before it. -/
theorem analyze_error_is_first (options : AnalysisOptions) (script : Text) (e : ScriptError)
    (h : analyze options script = .error e) :
    (∀ t ∈ tokenize script, t.Offends options.ecmaVersion → e.offset ≤ t.span.start) ∧
    ((∀ t ∈ tokenize script, ¬ t.Offends options.ecmaVersion) →
      ∀ before t after, tokenize script = before ++ t :: after → (∃ b, t.kind = .closing b) →
        ¬ Completable (edges (before ++ [t])) → e.offset ≤ t.span.start) := by
  by_cases htokens : ∀ t ∈ tokenize script, ¬ t.Offends options.ecmaVersion
  · refine ⟨fun t ht hoffends => absurd hoffends (htokens t ht),
      fun _ before t after hsplit _ hnot => ?_⟩
    have hnotall : ¬ Completable (edges (tokenize script)) := fun hall => by
      rw [hsplit, ← List.singleton_append, ← List.append_assoc, edges_append] at hall
      exact hnot hall.of_append
    obtain ⟨before', t', after', hsplit', hmismatch, herror⟩ :=
      exists_mismatch script.byteLength hnotall
    rw [analyze_eq, tokenError?_eq_none_iff.mpr htokens, herror] at h
    obtain rfl := Except.error.inj h
    -- the brackets before the first mismatch can be completed, those up to `t` cannot
    refine start_le_of_length_le hsplit' hsplit (Nat.le_of_not_lt fun hlt => hnot ?_)
    obtain ⟨between, rfl⟩ : before ++ [t] <+: before' :=
      List.prefix_of_prefix_length_le ⟨after, by rw [hsplit, List.append_assoc]; rfl⟩
        ⟨_, hsplit'.symm⟩ (by rw [List.length_append]; exact hlt)
    have hcompletable := hmismatch.completable
    rw [edges_append] at hcompletable
    exact hcompletable.of_append
  · refine ⟨fun t ht hoffends => ?_, fun hnone => absurd hnone htokens⟩
    obtain ⟨before, first, after, cause, hsplit, hbefore, -, -, herror⟩ := analyze_of_offence htokens
    rw [herror] at h
    obtain rfl := Except.error.inj h
    rw [hsplit] at ht
    rcases List.mem_append.mp ht with hearlier | hbehind
    · exact absurd hoffends (hbefore t hearlier)
    · exact start_le_of_mem_behind hsplit hbehind

/-- Two closing brackets with nothing to close. -/
def twoClosings : Text := ['a', ')', ']']

/-- The first of them is reported. -/
theorem analyze_error_is_first_twoClosings :
    analyze {} twoClosings = .error ⟨.unexpectedToken, 1⟩ ∧
    (∀ t ∈ tokenize twoClosings, ¬ t.Offends 2020) ∧
    ∀ before t after, tokenize twoClosings = before ++ t :: after → (∃ b, t.kind = .closing b) →
      ¬ Completable (edges (before ++ [t])) → 1 ≤ t.span.start := by
  have herror : analyze {} twoClosings = .error ⟨.unexpectedToken, 1⟩ := by decide +kernel
  have htokens : ∀ t ∈ tokenize twoClosings, ¬ t.Offends 2020 :=
    tokenError?_eq_none_iff.mp (by decide +kernel)
  exact ⟨herror, htokens, (analyze_error_is_first {} twoClosings _ herror).2 htokens⟩

/-- A closing bracket with nothing to close, and a stray backslash behind it. -/
def strayBehindClosing : Text := [')', '\\']

/-- Closing brackets are looked at only after all tokens, so the error of a
script is **not always its first**. -/
theorem earlier_mismatch_passed_over :
    ¬ ∀ (options : AnalysisOptions) (script : Text) (e : ScriptError),
      analyze options script = .error e →
        (∀ t ∈ tokenize script, t.Offends options.ecmaVersion → e.offset ≤ t.span.start) ∧
        ∀ before t after, tokenize script = before ++ t :: after → Mismatches before t →
          e.offset ≤ t.span.start := by
  intro hfirst
  have hsplit : tokenize strayBehindClosing =
      [] ++ ⟨.closing .round, [')'], 0, 1⟩ :: [⟨.unknown, ['\\'], 1, 2⟩] := by decide +kernel
  have herror : analyze {} strayBehindClosing = .error ⟨.unexpectedCharacter ['\\'], 1⟩ := by
    decide +kernel
  have hmismatch : Mismatches [] ⟨.closing .round, [')'], 0, 1⟩ := by
    refine ⟨⟨.round, rfl⟩, Balanced.nil.completable, ?_⟩
    rw [completable_iff]
    rintro ⟨s, hs⟩
    cases hs
  exact absurd ((hfirst {} strayBehindClosing _ herror).2 _ _ _ hsplit hmismatch) (by decide)

end FenceFacts
