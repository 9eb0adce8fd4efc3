import FenceFacts.Script.Analysis
import Mathlib.Data.List.Basic
import Mathlib.Tactic.Common

/-!
# FenceFacts — the search for statements

The search for top-level statements reads the tokens once and keeps two
numbers that it never looks up: how many significant tokens it has passed,
and how many brackets are open.  The first is used as an index into the list
of significant tokens, which is made separately; the second is counted down
at closing brackets.

The index is right because both count the same tokens.  The depth is the
number of brackets that the check of the brackets has on its stack, so it is
never counted down from zero in a script that has passed the check.

## Results

* `starts_cons`                     — one token of the search.
* `mem_starts_iff`, `pairwise_starts` — what it finds.
* `exists_statementStarts_append`   — the search behind the first tokens.
* `getElem?_of_mem_statementStarts` — statements start at significant tokens.
* `depth_pos_of_closing`            — the depth at a closing bracket.
-/

namespace FenceFacts

-- ---------------------------------------------------------------------------
-- Significant tokens
-- ---------------------------------------------------------------------------

theorem significant_append (before after : List Token) :
    significant (before ++ after) = significant before ++ significant after := by
  rw [significant, List.filter_append]
  rfl

theorem significant_cons_of_pos {t : Token} (h : t.isSignificant = true) (ts : List Token) :
    significant (t :: ts) = t :: significant ts :=
  List.filter_cons_of_pos h

theorem significant_cons_of_neg {t : Token} (h : ¬ t.isSignificant = true) (ts : List Token) :
    significant (t :: ts) = significant ts :=
  List.filter_cons_of_neg h

/-- A significant token has as its index the number of those before it. -/
theorem getElem?_significant_append (before : List Token) {t : Token} (h : t.isSignificant = true)
    (after : List Token) :
    (significant (before ++ t :: after))[(significant before).length]? = some t := by
  rw [significant_append, significant_cons_of_pos h, List.getElem?_append_right (Nat.le_refl _),
    Nat.sub_self, List.getElem?_cons_zero]

theorem isSignificant_of_closing {t : Token} {b : Bracket} (h : t.kind = .closing b) :
    t.isSignificant = true := by
  rw [Token.isSignificant, h]
  rfl

theorem ne_newline_of_isSignificant {t : Token} (h : t.isSignificant = true) :
    t.kind ≠ .newline := by
  intro hkind
  rw [Token.isSignificant, hkind] at h
  cases h

-- ---------------------------------------------------------------------------
-- The search
-- ---------------------------------------------------------------------------

/-- What the search carries along from token to token. -/
structure StatementSearch where
  depth : Nat := 0
  index : Nat := 0
  pending : Bool := true
  deriving DecidableEq, Repr

namespace StatementSearch

/-- The statements that the search finds from here on. -/
def starts (s : StatementSearch) (tokens : List Token) : List Nat :=
  statementStartsFrom s.depth s.index s.pending tokens

/-- The search behind one more significant token. -/
def pass (s : StatementSearch) (t : Token) : StatementSearch :=
  match t.kind with
  | .opening _ => ⟨s.depth + 1, s.index + 1, false⟩
  | .closing b => ⟨s.depth - 1, s.index + 1, s.depth - 1 == 0 && b == .curly⟩
  | _ => ⟨s.depth, s.index + 1, s.depth == 0 && t.reads ";"⟩

/-- The search behind one more token. -/
def step (s : StatementSearch) (t : Token) : StatementSearch :=
  if t.isSignificant then s.pass t
  else if t.kind = .newline then { s with pending := s.pending || s.depth == 0 }
  else s

/-- The search behind the first tokens of a script. -/
def behind (tokens : List Token) : StatementSearch := tokens.foldl step {}

/-- A statement starts with this token. -/
def isStart (s : StatementSearch) (t : Token) : Bool :=
  t.isSignificant && (s.depth == 0 && s.pending)

variable {s : StatementSearch} {t : Token}

theorem step_of_isSignificant (h : t.isSignificant = true) (s : StatementSearch) :
    s.step t = s.pass t := by
  rw [step, if_pos h]

theorem depth_step_of_not_isSignificant (h : ¬ t.isSignificant = true) (s : StatementSearch) :
    (s.step t).depth = s.depth := by
  rw [step, if_neg h]
  split <;> rfl

theorem index_step_of_not_isSignificant (h : ¬ t.isSignificant = true) (s : StatementSearch) :
    (s.step t).index = s.index := by
  rw [step, if_neg h]
  split <;> rfl

theorem index_pass (s : StatementSearch) (t : Token) : (s.pass t).index = s.index + 1 := by
  rw [pass]
  split <;> rfl

/-- **One token** of the search. -/
theorem starts_cons (s : StatementSearch) (t : Token) (ts : List Token) :
    s.starts (t :: ts) = (if s.isStart t then [s.index] else []) ++ (s.step t).starts ts := by
  rw [starts, statementStartsFrom, isStart]
  by_cases h : t.isSignificant = true
  · rw [if_neg (ne_newline_of_isSignificant h), step_of_isSignificant h, h]
    have hpass : (s.pass t).starts ts =
        match t.kind with
        | .opening _ => statementStartsFrom (s.depth + 1) (s.index + 1) false ts
        | .closing b =>
          statementStartsFrom (s.depth - 1) (s.index + 1) (s.depth - 1 == 0 && b == .curly) ts
        | _ => statementStartsFrom s.depth (s.index + 1) (s.depth == 0 && t.reads ";") ts := by
      rw [pass]
      cases t.kind <;> rfl
    rw [hpass, Bool.true_and]
    cases s.depth == 0 && s.pending <;> rfl
  · have hinsignificant : t.isSignificant = false := Bool.eq_false_iff.mpr h
    rw [step, if_neg h, hinsignificant]
    split <;> rfl

theorem exists_starts_append (s : StatementSearch) (before after : List Token) :
    ∃ found, s.starts (before ++ after) = found ++ (before.foldl step s).starts after := by
  induction before generalizing s with
  | nil => exact ⟨[], rfl⟩
  | cons t before ih =>
    obtain ⟨found, hfound⟩ := ih (s.step t)
    refine ⟨(if s.isStart t then [s.index] else []) ++ found, ?_⟩
    rw [List.cons_append, starts_cons, hfound, List.append_assoc]
    rfl

/-- The search for the statements of a script **goes on** from what it carries
behind the first tokens. -/
theorem exists_statementStarts_append (before after : List Token) :
    ∃ found, statementStarts (before ++ after) = found ++ (behind before).starts after :=
  exists_starts_append {} before after

-- ---------------------------------------------------------------------------
-- The index
-- ---------------------------------------------------------------------------

/-- The search counts the significant tokens it has passed. -/
theorem index_foldl (s : StatementSearch) (before : List Token) :
    (before.foldl step s).index = s.index + (significant before).length := by
  induction before generalizing s with
  | nil => rfl
  | cons t before ih =>
    rw [List.foldl_cons, ih]
    by_cases h : t.isSignificant = true
    · rw [significant_cons_of_pos h, step_of_isSignificant h, index_pass, List.length_cons]
      omega
    · rw [significant_cons_of_neg h, index_step_of_not_isSignificant h]

/-- What the search finds it finds **at a token**. -/
theorem mem_starts_iff {tokens : List Token} {i : Nat} :
    i ∈ s.starts tokens ↔
      ∃ before t after, tokens = before ++ t :: after ∧ (before.foldl step s).isStart t = true ∧
        i = (before.foldl step s).index := by
  induction tokens generalizing s with
  | nil => exact iff_of_false List.not_mem_nil fun ⟨before, t, after, h, _⟩ =>
      absurd h.symm (List.append_ne_nil_of_right_ne_nil before (List.cons_ne_nil t after))
  | cons t tokens ih =>
    rw [starts_cons, List.mem_append, ih]
    constructor
    · rintro (hhere | ⟨before, u, after, rfl, hstart, hi⟩)
      · split at hhere
        · next hstart => exact ⟨[], t, tokens, rfl, hstart, List.mem_singleton.mp hhere⟩
        · exact absurd hhere List.not_mem_nil
      · exact ⟨t :: before, u, after, rfl, hstart, hi⟩
    · rintro ⟨before, u, after, hsplit, hstart, hi⟩
      cases before with
      | nil =>
        obtain ⟨rfl, rfl⟩ := List.cons.inj hsplit
        have hstart : s.isStart t = true := hstart
        rw [if_pos hstart]
        exact Or.inl (List.mem_singleton.mpr hi)
      | cons _ before =>
        obtain ⟨rfl, rfl⟩ := List.cons.inj hsplit
        exact Or.inr ⟨before, u, after, rfl, hstart, hi⟩

/-- The search never finds an index that it has passed. -/
theorem index_le_of_mem_starts {tokens : List Token} {i : Nat} (h : i ∈ s.starts tokens) :
    s.index ≤ i := by
  obtain ⟨before, t, after, -, -, rfl⟩ := mem_starts_iff.mp h
  rw [index_foldl]
  exact Nat.le_add_right _ _

/-- It finds every index **once**, and one after the other. -/
theorem pairwise_starts (s : StatementSearch) (tokens : List Token) :
    (s.starts tokens).Pairwise (· < ·) := by
  induction tokens generalizing s with
  | nil => exact List.Pairwise.nil
  | cons t tokens ih =>
    rw [starts_cons]
    split
    · next hstart =>
      refine List.pairwise_cons.mpr ⟨fun i hi => ?_, ih (s.step t)⟩
      have hsignificant : t.isSignificant = true := (Bool.and_eq_true_iff.mp hstart).1
      have hpassed := index_le_of_mem_starts hi
      rwa [step_of_isSignificant hsignificant, index_pass] at hpassed
    · exact ih (s.step t)

/-- The index of a statement is that of **a significant token**. -/
theorem getElem?_of_mem_statementStarts {tokens : List Token} {i : Nat}
    (h : i ∈ statementStarts tokens) :
    ∃ before t after, tokens = before ++ t :: after ∧ (behind before).depth = 0 ∧
      (significant tokens)[i]? = some t := by
  obtain ⟨before, t, after, rfl, hstart, hi⟩ := (mem_starts_iff (s := {})).mp h
  rw [isStart, Bool.and_eq_true, Bool.and_eq_true, beq_iff_eq] at hstart
  obtain ⟨hsignificant, hdepth, -⟩ := hstart
  refine ⟨before, t, after, rfl, hdepth, ?_⟩
  rw [hi, index_foldl, Nat.zero_add]
  exact getElem?_significant_append before hsignificant after

-- ---------------------------------------------------------------------------
-- The depth
-- ---------------------------------------------------------------------------

/-- The depth goes along with the stack of the check. -/
theorem exists_unclosed_pass {stop : Nat} {unclosed : List Bracket}
    (hdepth : s.depth = unclosed.length) {ts : List Token}
    (h : bracketErrorFrom? stop unclosed (t :: ts) = none) :
    ∃ unclosed', (s.pass t).depth = unclosed'.length ∧
      bracketErrorFrom? stop unclosed' ts = none := by
  rw [pass]
  cases hkind : t.kind with
  | opening b =>
    simp only [bracketErrorFrom?, hkind] at h
    exact ⟨b :: unclosed, congrArg (· + 1) hdepth, h⟩
  | closing b =>
    simp only [bracketErrorFrom?, hkind] at h
    cases unclosed with
    | nil => cases h
    | cons innermost outer =>
      -- the innermost bracket is closed
      dsimp only at h
      split at h
      · refine ⟨outer, ?_, h⟩
        show s.depth - 1 = outer.length
        rw [hdepth, List.length_cons, Nat.add_sub_cancel]
      · cases h
  | _ =>
    simp only [bracketErrorFrom?, hkind] at h
    exact ⟨unclosed, hdepth, h⟩

/-- At a closing bracket the stack of the check is not empty. -/
theorem depth_pos_of_unclosed {stop : Nat} {unclosed : List Bracket}
    (hdepth : s.depth = unclosed.length) {before after : List Token} {b : Bracket}
    (hclosing : t.kind = .closing b)
    (h : bracketErrorFrom? stop unclosed (significant (before ++ t :: after)) = none) :
    0 < (before.foldl step s).depth := by
  induction before generalizing s unclosed with
  | nil =>
    rw [List.nil_append, significant_cons_of_pos (isSignificant_of_closing hclosing)] at h
    cases unclosed with
    | nil =>
      simp only [bracketErrorFrom?, hclosing] at h
      cases h
    | cons innermost outer =>
      rw [List.foldl_nil, hdepth]
      exact Nat.succ_pos _
  | cons u before ih =>
    rw [List.cons_append] at h
    rw [List.foldl_cons]
    by_cases hu : u.isSignificant = true
    · rw [significant_cons_of_pos hu] at h
      obtain ⟨unclosed', hdepth', h⟩ := exists_unclosed_pass hdepth h
      rw [step_of_isSignificant hu]
      exact ih hdepth' h
    · rw [significant_cons_of_neg hu] at h
      exact ih ((depth_step_of_not_isSignificant hu s).trans hdepth) h

/-- In a script whose brackets pair up the search **never counts down from
zero**. -/
theorem depth_pos_of_closing {stop : Nat} {tokens before after : List Token}
    (h : bracketError? stop (significant tokens) = none) (htokens : tokens = before ++ t :: after)
    {b : Bracket} (hclosing : t.kind = .closing b) : 0 < (behind before).depth := by
  rw [htokens] at h
  exact depth_pos_of_unclosed rfl hclosing h

end StatementSearch

end FenceFacts
