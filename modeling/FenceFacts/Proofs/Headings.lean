import FenceFacts.Proofs.Bindings

/-!
# FenceFacts — statements that declare nothing

A statement can start like a declaration and still bind no name: a class or a
function may be exported as a default without one, and a pattern stands where
a name would.  In both cases a bracket comes behind the keyword, and nothing
is recorded for the statement.

What is recorded otherwise is whatever identifier comes behind the keyword.
Reserved words are identifiers to the reader, so a class without a name that
extends another one is recorded under the name `extends`.

## Results

* `records_declarationAt?`   — what is recorded for one statement.
* `unnamed_declares_nothing` — a bracket behind the keyword.
* `heritage_taken_for_name`  — a reserved word behind it.
-/

namespace FenceFacts

open Lexicon

-- ---------------------------------------------------------------------------
-- What is recorded for a statement
-- ---------------------------------------------------------------------------

/-- The analysis records `ds` for the statement `w`: its declarations are
those of the statements before `w`, these, and those of the statements behind
it. -/
def Analysis.Records (a : Analysis) (w : List Token) (ds : List Declaration) : Prop :=
  ∃ earlier later, statements a.tokens = earlier ++ w :: later ∧
    a.declarations = earlier.filterMap declarationAt? ++ (ds ++ later.filterMap declarationAt?)

/-- A top-level statement is searched for **one declaration**. -/
theorem Analysis.records_declarationAt? {options : AnalysisOptions} {script : Text} {a : Analysis}
    (h : analyze options script = .ok a) {before after : List Token} {t : Token}
    (hsplit : a.tokens = before ++ t :: after) (hstarts : StartsStatement before t) :
    a.Records (significant (t :: after)) (declarationAt? (significant (t :: after))).toList := by
  obtain ⟨htokens, hdeclarations, -⟩ := eq_of_analyze_ok h
  have hmem : ∀ u ∈ before, u ∈ tokenize script := fun u hu => by
    rw [← htokens, hsplit]
    exact List.mem_append_left _ hu
  have hstart := (StatementSearch.isStart_iff hmem hstarts.topLevel.completable).mpr hstarts
  have hstatement : significant (t :: after) ∈ statements a.tokens :=
    StatementSearch.mem_statementsFrom_iff.mpr ⟨before, t, after, hsplit, hstart, rfl⟩
  obtain ⟨earlier, later, hstatements⟩ := List.append_of_mem hstatement
  refine ⟨earlier, later, hstatements, ?_⟩
  rw [hdeclarations, ← htokens, declarations_eq, hstatements, List.filterMap_append]
  cases hd : declarationAt? (significant (t :: after)) with
  | none => rw [List.filterMap_cons_none hd]; rfl
  | some d => rw [List.filterMap_cons_some hd]; rfl

-- ---------------------------------------------------------------------------
-- Behind the keyword
-- ---------------------------------------------------------------------------

/-- The statement `w` has modifiers, if any, then the keyword of a declaration
and, if there is one, the star of a generator, and then `next`. -/
def Introduces (w : List Token) (kind : DeclarationKind) (next : Token) : Prop :=
  ∃ modifiers keyword star rest, w = modifiers ++ keyword :: (star ++ next :: rest) ∧
    (∀ m ∈ modifiers, m.IsModifier) ∧ keyword.reads kind.keyword = true ∧
    (star = [] ∨ kind = .function ∧ ∃ s, star = [s] ∧ s.reads "*" = true)

section Introduces

variable {w : List Token} {kind : DeclarationKind} {next keyword : Token} {d : Declaration}

theorem Introduces.mem (h : Introduces w kind next) : next ∈ w := by
  obtain ⟨modifiers, keyword, star, rest, rfl, -⟩ := h
  exact List.mem_append_right modifiers (List.mem_cons_of_mem keyword
    (List.mem_append_right star List.mem_cons_self))

theorem DeclarationKind.ofToken?_of_reads (h : keyword.reads kind.keyword = true) :
    ofToken? keyword = some kind := by
  have htext : keyword.text = kind.keyword.toList := beq_iff_eq.mp h
  simp only [ofToken?, Token.reads, htext]
  cases kind <;> decide

theorem not_isModifier_of_keyword (h : keyword.reads kind.keyword = true) :
    ¬ keyword.IsModifier := fun hmodifier => by
  have hkind := DeclarationKind.ofToken?_of_reads h
  rw [hmodifier.ofToken?_eq_none] at hkind
  cases hkind

/-- Only **what comes behind the keyword** can be the name. -/
theorem Introduces.eq_of_declarationAt? (h : Introduces w kind next)
    (hnext : ¬ next.reads "*" = true) (hd : declarationAt? w = some d) :
    next.kind = .ident ∧ d = ⟨kind, next.text, next.span⟩ := by
  obtain ⟨modifiers, keyword, star, rest, rfl, hmodifiers, hkeyword, hstar⟩ := h
  have hskip := skipModifiers_of_declarationAt? hmodifiers (not_isModifier_of_keyword hkeyword) hd
  have hname : (if kind = .function then skipWord "*" (star ++ next :: rest)
      else star ++ next :: rest).head? = some next := by
    rcases hstar with rfl | ⟨rfl, s, rfl, hs⟩
    · rw [List.nil_append, skipWord, if_neg hnext, ite_self]
      rfl
    · rw [if_pos rfl, List.singleton_append, skipWord, if_pos hs]
      rfl
  rw [declarationAt?, hskip] at hd
  simp only [DeclarationKind.ofToken?_of_reads hkeyword, Option.bind_eq_bind, Option.bind_some,
    hname] at hd
  obtain ⟨hident, hd⟩ := Option.ite_none_right_eq_some.mp hd
  exact ⟨hident, (Option.some.inj hd).symm⟩

end Introduces

/-- A statement with a bracket where the name would be **declares nothing**:
no class or function without a name, and no pattern. -/
theorem unnamed_declares_nothing (options : AnalysisOptions) (script : Text) (a : Analysis)
    (h : analyze options script = .ok a) (before after : List Token) (t next : Token)
    (kind : DeclarationKind) (b : Bracket) (hsplit : a.tokens = before ++ t :: after)
    (hstarts : StartsStatement before t)
    (hintroduces : Introduces (significant (t :: after)) kind next)
    (hnext : next.kind = .opening b) : a.Records (significant (t :: after)) [] := by
  have hmem : next ∈ tokenize script := by
    rw [← (eq_of_analyze_ok h).1, hsplit]
    exact List.mem_append_right before (mem_of_mem_significant hintroduces.mem)
  have hstar : ¬ next.reads "*" = true := fun hreads => by
    have hedge : next.edge? = none := edge?_eq_none_of_text_mem hmem (k := .punct)
      (by rw [beq_iff_eq.mp hreads]; simp [mem_textsOf, rules, isPunct]) fun b => ⟨nofun, nofun⟩
    rw [Token.edge?, hnext] at hedge
    cases hedge
  have hnone : declarationAt? (significant (t :: after)) = none := by
    by_contra hsome
    obtain ⟨d, hd⟩ := Option.ne_none_iff_exists'.mp hsome
    have hident := (hintroduces.eq_of_declarationAt? hstar hd).1
    rw [hnext] at hident
    cases hident
  have hrecords := Analysis.records_declarationAt? h hsplit hstarts
  rwa [hnone] at hrecords

/-- A generator that is exported without a name. -/
def defaultGenerator : Text := "export default async function*() \x7b\x7d".toList

/-- It has all that can come before a name, and declares nothing. -/
theorem unnamed_declares_nothing_defaultGenerator :
    ∃ a t after, analyze {} defaultGenerator = .ok a ∧ a.tokens = [] ++ t :: after ∧
      StartsStatement [] t ∧
      Introduces (significant (t :: after)) .function ⟨.opening .round, ['('], 30, 31⟩ ∧
      a.Records (significant (t :: after)) [] := by
  have hsplit : tokenize defaultGenerator =
      ⟨.ident, "export".toList, 0, 6⟩ :: (tokenize defaultGenerator).tail := by decide +kernel
  have hstarts : StartsStatement [] ⟨.ident, "export".toList, 0, 6⟩ := ⟨rfl, .nil, Or.inl rfl⟩
  have hintroduces : Introduces (significant (tokenize defaultGenerator)) .function
      ⟨.opening .round, ['('], 30, 31⟩ := by
    refine ⟨(significant (tokenize defaultGenerator)).take 3,
      ⟨.ident, "function".toList, 21, 29⟩, [⟨.punct, ['*'], 29, 30⟩],
      (significant (tokenize defaultGenerator)).drop 6, ?_, ?_, rfl, Or.inr ⟨rfl, _, rfl, rfl⟩⟩
    · decide +kernel
    · decide +kernel
  obtain ⟨a, h, htokens, -⟩ := exists_analysis_of_accepted
    (show (analyze {} defaultGenerator).toOption.isSome = true by decide +kernel)
  rw [hsplit] at htokens hintroduces
  exact ⟨a, _, _, h, htokens, hstarts, hintroduces,
    unnamed_declares_nothing {} defaultGenerator a h [] _ _ _ .function .round htokens hstarts
      hintroduces rfl⟩

/-- A class without a name that extends another one. -/
def defaultHeir : Text := "export default class extends B \x7b\x7d".toList

/-- The reserved word `extends` is **taken for a name**. -/
theorem heritage_taken_for_name :
    ¬ ∀ (options : AnalysisOptions) (script : Text) (a : Analysis),
      analyze options script = .ok a → ∀ (before after : List Token) (t next : Token)
        (kind : DeclarationKind), a.tokens = before ++ t :: after → StartsStatement before t →
        (kind = .function ∨ kind = .classDef) → Introduces (significant (t :: after)) kind next →
        (next.kind = .opening .curly ∨ next.kind = .opening .round ∨
          next.reads "extends" = true) → a.Records (significant (t :: after)) [] := by
  intro hnothing
  have hsplit : tokenize defaultHeir =
      ⟨.ident, "export".toList, 0, 6⟩ :: (tokenize defaultHeir).tail := by decide +kernel
  have hintroduces : Introduces (significant (tokenize defaultHeir)) .classDef
      ⟨.ident, "extends".toList, 21, 28⟩ := by
    refine ⟨(significant (tokenize defaultHeir)).take 2, ⟨.ident, "class".toList, 15, 20⟩, [],
      (significant (tokenize defaultHeir)).drop 4, ?_, ?_, rfl, Or.inl rfl⟩
    · decide +kernel
    · decide +kernel
  have hdeclarations : declarations (tokenize defaultHeir) =
      [⟨.classDef, "extends".toList, 21, 28⟩] := by decide +kernel
  have hone : (statements (tokenize defaultHeir)).length = 1 := by decide +kernel
  obtain ⟨a, h, htokens, hrecorded⟩ := exists_analysis_of_accepted
    (show (analyze {} defaultHeir).toOption.isSome = true by decide +kernel)
  rw [hdeclarations] at hrecorded
  rw [← htokens] at hone
  rw [hsplit] at htokens hintroduces
  obtain ⟨earlier, later, hstatements, hnone⟩ := hnothing {} defaultHeir a h [] _ _ _ .classDef
    htokens ⟨rfl, .nil, Or.inl rfl⟩ (Or.inr rfl) hintroduces (Or.inr (Or.inr rfl))
  -- there is no other statement that could be recorded for
  rw [hstatements, List.length_append, List.length_cons] at hone
  obtain rfl : earlier = [] := List.length_eq_zero_iff.mp (by omega)
  obtain rfl : later = [] := List.length_eq_zero_iff.mp (by omega)
  rw [hrecorded] at hnone
  cases hnone

end FenceFacts
