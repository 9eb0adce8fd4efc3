import FenceFacts.Proofs.Statements

/-!
# FenceFacts — balanced brackets

The brackets of a script are a word over three pairs, whatever stands between
them.  The word is balanced when it falls into pairs with balanced words inside
and behind, which says nothing about how to find that out.

The check of the brackets goes through the tokens once and keeps the brackets
that are open on a stack.  What is on the stack is exactly what is still to be
closed, so a word can be completed to a balanced one as long as the check has
found nothing, and it is balanced if the stack is empty in the end.

## Results

* `balanced_iff`       — a word is balanced if it leaves nothing open.
* `completable_iff`    — a word can be completed if nothing in it fails to match.
* `bracketError?_eq_none_iff`, `bracketError?_of_completable`, `exists_mismatch` —
  what the check finds.
-/

namespace FenceFacts

-- ---------------------------------------------------------------------------
-- Words of brackets
-- ---------------------------------------------------------------------------

/-- One side of a pair of brackets. -/
inductive Edge
  | opening (b : Bracket)
  | closing (b : Bracket)
  deriving DecidableEq, Repr

/-- Every bracket of the word has its partner. -/
inductive Balanced : List Edge → Prop
  | nil : Balanced []
  | pair (b : Bracket) {u v : List Edge} : Balanced u → Balanced v →
    Balanced (.opening b :: (u ++ .closing b :: v))

/-- A balanced word starts with this one. -/
def Completable (w : List Edge) : Prop := ∃ v, Balanced (w ++ v)

/-- The brackets that are open behind a word, the innermost first, if they were
`unclosed` before it and every closing bracket in it matches. -/
def unclosedBehind? (unclosed : List Bracket) : List Edge → Option (List Bracket)
  | [] => some unclosed
  | .opening b :: w => unclosedBehind? (b :: unclosed) w
  | .closing b :: w =>
    match unclosed with
    | [] => none
    | innermost :: outer => if innermost = b then unclosedBehind? outer w else none

section Words

variable {u w : List Edge} {s s' : List Bracket} {b : Bracket}

theorem unclosedBehind?_closing_self (b : Bracket) (s : List Bracket) (w : List Edge) :
    unclosedBehind? (b :: s) (.closing b :: w) = unclosedBehind? s w := by
  rw [unclosedBehind?, if_pos rfl]

theorem exists_of_unclosedBehind?_closing (h : unclosedBehind? s (.closing b :: w) = some s') :
    ∃ outer, s = b :: outer ∧ unclosedBehind? outer w = some s' := by
  cases s with
  | nil => cases h
  | cons innermost outer =>
    rw [unclosedBehind?] at h
    split at h
    · next hmatch => exact ⟨outer, by rw [hmatch], h⟩
    · cases h

theorem unclosedBehind?_append (s : List Bracket) (u w : List Edge) :
    unclosedBehind? s (u ++ w) = (unclosedBehind? s u).bind (unclosedBehind? · w) := by
  fun_induction unclosedBehind? s u with
  | case1 => rfl
  | case2 s b u ih => exact ih
  | case3 => rfl
  | case4 b u outer ih =>
    rw [List.cons_append, unclosedBehind?_closing_self]
    exact ih
  | case5 b u innermost outer hne =>
    rw [List.cons_append, unclosedBehind?, if_neg hne]
    rfl

/-- A balanced word leaves open what was open before it. -/
theorem Balanced.unclosedBehind?_eq (h : Balanced w) (s : List Bracket) :
    unclosedBehind? s w = some s := by
  induction h generalizing s with
  | nil => rfl
  | pair b _ _ ihu ihv =>
    rw [unclosedBehind?, unclosedBehind?_append, ihu, Option.bind_some,
      unclosedBehind?_closing_self, ihv]

/-- A word that leaves nothing open closes the brackets that were open one by
one, the innermost first, with balanced words between. -/
theorem balanced_of_unclosedBehind? :
    ∀ {w : List Edge} {s : List Bracket}, unclosedBehind? s w = some [] →
      match s with
      | [] => Balanced w
      | b :: outer => ∃ u v, w = u ++ .closing b :: v ∧ Balanced u ∧
          v.length < w.length ∧ unclosedBehind? outer v = some []
  | [], [], _ => .nil
  | [], _ :: _, h => by cases h
  | .opening b :: w, s, h => by
    rw [unclosedBehind?] at h
    -- the bracket that opens is closed first, and the rest closes what was open before
    obtain ⟨u, v, rfl, hu, hv, hrest⟩ := balanced_of_unclosedBehind? h
    have hlater := balanced_of_unclosedBehind? hrest
    cases s with
    | nil => exact .pair b hu hlater
    | cons c outer =>
      obtain ⟨u', v', rfl, hu', -, houter⟩ := hlater
      refine ⟨.opening b :: (u ++ .closing b :: u'), v', ?_, .pair b hu hu', ?_, houter⟩
      · simp only [List.cons_append, List.append_assoc]
      · simp only [List.length_cons, List.length_append] at hv ⊢
        omega
  | .closing b :: w, s, h => by
    obtain ⟨outer, rfl, houter⟩ := exists_of_unclosedBehind?_closing h
    exact ⟨[], w, rfl, .nil, Nat.lt_succ_self _, houter⟩
termination_by w => w.length
decreasing_by
  · exact Nat.lt_succ_self _
  · simp only [List.length_cons, List.length_append] at hv ⊢
    omega

/-- A word is balanced if it **leaves nothing open**. -/
theorem balanced_iff : Balanced w ↔ unclosedBehind? [] w = some [] :=
  ⟨fun h => h.unclosedBehind?_eq [], fun h => balanced_of_unclosedBehind? h⟩

/-- What is open can be closed. -/
theorem unclosedBehind?_map_closing (s : List Bracket) :
    unclosedBehind? s (s.map .closing) = some [] := by
  induction s with
  | nil => rfl
  | cons b s ih => rw [List.map_cons, unclosedBehind?_closing_self, ih]

/-- A word can be completed if **all its closing brackets match**. -/
theorem completable_iff : Completable w ↔ ∃ s, unclosedBehind? [] w = some s := by
  constructor
  · rintro ⟨v, hv⟩
    rw [balanced_iff, unclosedBehind?_append] at hv
    obtain ⟨s, hs, -⟩ := Option.bind_eq_some_iff.mp hv
    exact ⟨s, hs⟩
  · rintro ⟨s, hs⟩
    refine ⟨s.map .closing, balanced_iff.mpr ?_⟩
    rw [unclosedBehind?_append, hs, Option.bind_some, unclosedBehind?_map_closing]

theorem Completable.of_append (h : Completable (u ++ w)) : Completable u := by
  obtain ⟨v, hv⟩ := h
  exact ⟨w ++ v, by rwa [← List.append_assoc]⟩

theorem Balanced.completable (h : Balanced w) : Completable w := ⟨[], by rwa [List.append_nil]⟩

end Words

-- ---------------------------------------------------------------------------
-- The brackets among tokens
-- ---------------------------------------------------------------------------

def Token.edge? (t : Token) : Option Edge :=
  match t.kind with
  | .opening b => some (.opening b)
  | .closing b => some (.closing b)
  | _ => none

/-- The word that the bracket tokens are. -/
def edges (tokens : List Token) : List Edge := tokens.filterMap Token.edge?

section Tokens

variable {t : Token} {stop : Nat}

theorem edges_append (before after : List Token) :
    edges (before ++ after) = edges before ++ edges after :=
  List.filterMap_append

theorem edges_cons_of_none (h : t.edge? = none) (ts : List Token) :
    edges (t :: ts) = edges ts :=
  List.filterMap_cons_none h

theorem edges_cons_of_some {e : Edge} (h : t.edge? = some e) (ts : List Token) :
    edges (t :: ts) = e :: edges ts :=
  List.filterMap_cons_some h

theorem isSignificant_of_edge? {e : Edge} (h : t.edge? = some e) : t.isSignificant = true := by
  rw [Token.edge?] at h
  rw [Token.isSignificant]
  split at h
  · next hkind => rw [hkind]; rfl
  · next hkind => rw [hkind]; rfl
  · cases h

theorem edge?_eq_none_of_not_isSignificant (h : ¬ t.isSignificant = true) : t.edge? = none := by
  by_contra hsome
  obtain ⟨e, he⟩ := Option.ne_none_iff_exists'.mp hsome
  exact h (isSignificant_of_edge? he)

-- ---------------------------------------------------------------------------
-- The check
-- ---------------------------------------------------------------------------

/-- The token is the first closing bracket that matches no open one. -/
structure Mismatches (before : List Token) (t : Token) : Prop where
  closing : ∃ b, t.kind = .closing b
  completable : Completable (edges before)
  not_completable : ¬ Completable (edges (before ++ [t]))

/-- **One token** of the check: a bracket that matches changes what is open. -/
theorem bracketErrorFrom?_cons (unclosed : List Bracket) (t : Token) (ts : List Token) :
    bracketErrorFrom? stop unclosed (t :: ts) =
      match t.edge? with
      | none => bracketErrorFrom? stop unclosed ts
      | some e =>
        match unclosedBehind? unclosed [e] with
        | some s => bracketErrorFrom? stop s ts
        | none => some ⟨.unexpectedToken, t.span.start⟩ := by
  rw [Token.edge?]
  cases hkind : t.kind with
  | opening b => simp only [bracketErrorFrom?, hkind, unclosedBehind?]
  | closing b =>
    simp only [bracketErrorFrom?, hkind, unclosedBehind?]
    cases unclosed with
    | nil => rfl
    | cons innermost outer => by_cases h : innermost = b <;> simp only [h, if_true, if_false]
  | _ => simp only [bracketErrorFrom?, hkind]

theorem bracketErrorFrom?_significant (unclosed : List Bracket) (tokens : List Token) :
    bracketErrorFrom? stop unclosed (significant tokens) =
      bracketErrorFrom? stop unclosed tokens := by
  induction tokens generalizing unclosed with
  | nil => rfl
  | cons t ts ih =>
    by_cases h : t.isSignificant = true
    · rw [significant_cons_of_pos h, bracketErrorFrom?_cons, bracketErrorFrom?_cons]
      simp only [ih]
    · rw [significant_cons_of_neg h, bracketErrorFrom?_cons,
        edge?_eq_none_of_not_isSignificant h]
      exact ih unclosed

/-- What the check finds where every closing bracket matches. -/
theorem bracketErrorFrom?_of_some {unclosed s : List Bracket} {tokens : List Token}
    (h : unclosedBehind? unclosed (edges tokens) = some s) :
    bracketErrorFrom? stop unclosed tokens =
      if s.isEmpty then none else some ⟨.unexpectedEnd, stop⟩ := by
  induction tokens generalizing unclosed with
  | nil =>
    obtain rfl := Option.some.inj h
    rfl
  | cons t ts ih =>
    rw [bracketErrorFrom?_cons]
    cases he : t.edge? with
    | none =>
      rw [edges_cons_of_none he] at h
      exact ih h
    | some e =>
      rw [edges_cons_of_some he, ← List.singleton_append, unclosedBehind?_append] at h
      obtain ⟨s', hs', h⟩ := Option.bind_eq_some_iff.mp h
      simp only [hs']
      exact ih h

/-- What it finds where one does not. -/
theorem exists_of_unclosedBehind?_eq_none (stop : Nat) {unclosed : List Bracket}
    {tokens : List Token}
    (h : unclosedBehind? unclosed (edges tokens) = none) :
    ∃ before t after s, tokens = before ++ t :: after ∧
      unclosedBehind? unclosed (edges before) = some s ∧
      unclosedBehind? unclosed (edges (before ++ [t])) = none ∧
      bracketErrorFrom? stop unclosed tokens = some ⟨.unexpectedToken, t.span.start⟩ := by
  induction tokens generalizing unclosed with
  | nil => cases h
  | cons t ts ih =>
    rw [bracketErrorFrom?_cons]
    cases he : t.edge? with
    | none =>
      rw [edges_cons_of_none he] at h
      obtain ⟨before, u, after, s, rfl, hbefore, hbehind, herror⟩ := ih h
      refine ⟨t :: before, u, after, s, rfl, ?_, ?_, herror⟩
      · rwa [edges_cons_of_none he]
      · rwa [List.cons_append, edges_cons_of_none he]
    | some e =>
      rw [edges_cons_of_some he, ← List.singleton_append, unclosedBehind?_append] at h
      cases hs : unclosedBehind? unclosed [e] with
      | none =>
        refine ⟨[], t, ts, unclosed, rfl, rfl, ?_, by simp only [hs]⟩
        rwa [List.nil_append, edges_cons_of_some he]
      | some s =>
        rw [hs] at h
        obtain ⟨before, u, after, s', rfl, hbefore, hbehind, herror⟩ := ih h
        refine ⟨t :: before, u, after, s', rfl, ?_, ?_, by simpa only [hs] using herror⟩
        · rwa [edges_cons_of_some he, ← List.singleton_append, unclosedBehind?_append, hs]
        · rwa [List.cons_append, edges_cons_of_some he, ← List.singleton_append,
            unclosedBehind?_append, hs]

theorem bracketError?_eq_none_iff {tokens : List Token} :
    bracketError? stop (significant tokens) = none ↔ Balanced (edges tokens) := by
  rw [bracketError?, bracketErrorFrom?_significant, balanced_iff]
  cases h : unclosedBehind? [] (edges tokens) with
  | none =>
    obtain ⟨before, t, after, s, -, -, -, herror⟩ :=
      exists_of_unclosedBehind?_eq_none stop h
    rw [herror]
    exact iff_of_false nofun nofun
  | some s =>
    rw [bracketErrorFrom?_of_some h]
    cases s with
    | nil => exact iff_of_true rfl rfl
    | cons b s => exact iff_of_false nofun nofun

/-- Brackets that are **left open** are found at the end. -/
theorem bracketError?_of_completable {tokens : List Token} (h : Completable (edges tokens))
    (hnot : ¬ Balanced (edges tokens)) :
    bracketError? stop (significant tokens) = some ⟨.unexpectedEnd, stop⟩ := by
  obtain ⟨s, hs⟩ := completable_iff.mp h
  have hne : s ≠ [] := by
    rintro rfl
    exact hnot (balanced_iff.mpr hs)
  rw [bracketError?, bracketErrorFrom?_significant, bracketErrorFrom?_of_some hs, if_neg]
  rwa [List.isEmpty_iff]

/-- Only a closing bracket makes a word one that cannot be completed. -/
theorem exists_closing_of_not_completable {before : List Token}
    (hbefore : Completable (edges before)) (h : ¬ Completable (edges (before ++ [t]))) :
    ∃ b, t.kind = .closing b := by
  obtain ⟨s, hs⟩ := completable_iff.mp hbefore
  rw [completable_iff, edges_append, unclosedBehind?_append, hs, Option.bind_some, edges,
    List.filterMap_cons, Token.edge?] at h
  cases hkind : t.kind with
  | closing b => exact ⟨b, rfl⟩
  | opening b =>
    rw [hkind] at h
    exact absurd ⟨b :: s, rfl⟩ h
  | _ =>
    rw [hkind] at h
    exact absurd ⟨s, rfl⟩ h

/-- A closing bracket that **matches none** is found where it stands. -/
theorem exists_mismatch (stop : Nat) {tokens : List Token} (h : ¬ Completable (edges tokens)) :
    ∃ before t after, tokens = before ++ t :: after ∧ Mismatches before t ∧
      bracketError? stop (significant tokens) = some ⟨.unexpectedToken, t.span.start⟩ := by
  have hnone : unclosedBehind? [] (edges tokens) = none := by
    by_contra hsome
    exact h (completable_iff.mpr (Option.ne_none_iff_exists'.mp hsome))
  obtain ⟨before, t, after, s, htokens, hbefore, hbehind, herror⟩ :=
    exists_of_unclosedBehind?_eq_none stop hnone
  have hcompletable : Completable (edges before) := completable_iff.mpr ⟨s, hbefore⟩
  have hnot : ¬ Completable (edges (before ++ [t])) := by
    rw [completable_iff, hbehind]
    exact fun ⟨_, h⟩ => nomatch h
  refine ⟨before, t, after, htokens, ⟨?_, hcompletable, hnot⟩, ?_⟩
  · exact exists_closing_of_not_completable hcompletable hnot
  · rw [bracketError?, bracketErrorFrom?_significant, herror]

end Tokens

end FenceFacts
