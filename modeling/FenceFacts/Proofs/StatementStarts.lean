import FenceFacts.Proofs.Acceptance
import FenceFacts.Proofs.Bindings

/-!
# FenceFacts — statements by their indices

The search for statements hands out indices into the significant tokens, which
are counted and listed separately.  In a script whose brackets pair up it finds
the index of every token that starts a top-level statement, once and in order,
and no other.

From such a token on only modifiers, a keyword and a star are passed over on
the way to the name of a declaration.  None of these is a bracket, so the name
is at the top level as well.

## Results

* `mem_statementStarts_iff`   — the indices that are found.
* `balanced_before_name`      — no bracket is open before a declared name.
* `isModule_iff_of_auto`      — what makes a script a module.
* `statement_starts_are_exact` — all of this for a script.
-/

namespace FenceFacts

open Lexicon

variable {script : Text} {before after front rest w : List Token} {t name : Token} {i : Nat}
  {d : Declaration}

-- ---------------------------------------------------------------------------
-- Indices
-- ---------------------------------------------------------------------------

/-- The search finds the index of **every token that starts a statement**. -/
theorem mem_statementStarts_iff (hbalanced : Balanced (edges (tokenize script))) :
    i ∈ statementStarts (tokenize script) ↔
      ∃ before t after, tokenize script = before ++ t :: after ∧
        (significant before).length = i ∧ (significant (tokenize script))[i]? = some t ∧
        StartsStatement before t := by
  have hindex (before : List Token) :
      (StatementSearch.behind before).index = (significant before).length :=
    (StatementSearch.index_foldl {} before).trans (Nat.zero_add _)
  refine (StatementSearch.mem_starts_iff (s := {})).trans
    (exists_congr fun before => exists_congr fun t => exists_congr fun after =>
      and_congr_right fun hsplit => ?_)
  have hstart := StatementSearch.isStart_iff_of_balanced hbalanced hsplit
  constructor
  · rintro ⟨hstarts, rfl⟩
    have hstarts := hstart.mp hstarts
    have hplace := getElem?_significant_append before hstarts.significant after
    rw [← hsplit, ← hindex] at hplace
    exact ⟨(hindex before).symm, hplace, hstarts⟩
  · rintro ⟨rfl, -, hstarts⟩
    exact ⟨hstart.mpr hstarts, (hindex before).symm⟩

-- ---------------------------------------------------------------------------
-- Names of declarations
-- ---------------------------------------------------------------------------

theorem edge?_eq_none_of_keyword {kind : DeclarationKind} (ht : t ∈ tokenize script)
    (h : t.reads kind.keyword = true) : t.edge? = none := by
  refine edge?_eq_none_of_text_mem ht (k := .ident) ?_ fun b => ⟨nofun, nofun⟩
  rw [beq_iff_eq.mp h]
  cases kind <;> simp [DeclarationKind.keyword, mem_textsOf, rules, isIdentStart, isIdentPart]

theorem edge?_eq_none_of_star (ht : t ∈ tokenize script) (h : t.reads "*" = true) :
    t.edge? = none := by
  refine edge?_eq_none_of_text_mem ht (k := .punct) ?_ fun b => ⟨nofun, nofun⟩
  rw [beq_iff_eq.mp h]
  simp [mem_textsOf, rules, isPunct]

/-- On the way from the start of a statement to the name that it declares there
is **no bracket**. -/
theorem exists_name_behind (hw : ∀ u ∈ w, u ∈ tokenize script) (h : declarationAt? w = some d) :
    ∃ front name rest, w = front ++ name :: rest ∧ (∀ u ∈ front, u.edge? = none) ∧
      name.kind = .ident ∧ d.name = name.text ∧ d.span = name.span := by
  obtain ⟨keyword, star, name, rest, hskip, hkeyword, hstar, hname⟩ :=
    exists_keyword_of_declarationAt? h
  obtain ⟨passed, hsplit, hpassed⟩ := PassesOver.skipModifiers w
  rw [hskip] at hsplit
  have hsplit : w = (passed ++ keyword :: star) ++ name :: rest := by
    rw [hsplit, List.append_assoc, List.cons_append]
  refine ⟨passed ++ keyword :: star, name, rest, hsplit, fun u hu => ?_, hname⟩
  have hmem : u ∈ tokenize script := hw u (hsplit ▸ List.mem_append_left _ hu)
  rcases List.mem_append.mp hu with hu | hu
  · exact (hpassed u hu).edge?_eq_none hmem
  · rcases List.mem_cons.mp hu with rfl | hu
    · exact edge?_eq_none_of_keyword hmem hkeyword
    · exact edge?_eq_none_of_star hmem (hstar u hu)

/-- Tokens without brackets leave the brackets before them balanced. -/
theorem Balanced.append_of_edge?_eq_none (h : Balanced (edges before))
    (hfront : ∀ u ∈ significant front, u.edge? = none) : Balanced (edges (before ++ front)) := by
  have hnone : edges front = [] := by
    refine List.filterMap_eq_nil_iff.mpr fun u hu => ?_
    by_cases hsignificant : u.isSignificant = true
    · exact hfront u (List.mem_filter.mpr ⟨hu, hsignificant⟩)
    · exact edge?_eq_none_of_not_isSignificant hsignificant
  rwa [edges_append, hnone, List.append_nil]

/-- **No bracket is open** before the name of a declaration. -/
theorem balanced_before_name (hbalanced : Balanced (edges (tokenize script)))
    (h : d ∈ declarations (tokenize script)) :
    ∃ before name after, tokenize script = before ++ name :: after ∧ Balanced (edges before) ∧
      name.kind = .ident ∧ d.name = name.text ∧ d.span = name.span := by
  rw [declarations_eq] at h
  obtain ⟨w, hw, hd⟩ := List.mem_filterMap.mp h
  obtain ⟨before, t, after, hsplit, hstart, rfl⟩ := StatementSearch.mem_statementsFrom_iff.mp hw
  have hstarts : StartsStatement before t :=
    (StatementSearch.isStart_iff_of_balanced hbalanced hsplit).mp hstart
  have hmem : ∀ u ∈ significant (t :: after), u ∈ tokenize script := fun u hu => by
    rw [hsplit]
    exact List.mem_append_right before (mem_of_mem_significant hu)
  obtain ⟨front, name, rest, hfront, hnone, hname⟩ := exists_name_behind hmem hd
  -- the tokens up to the name are the significant ones and what is between them
  obtain ⟨passed, later, hpassed, rfl, hlater⟩ := List.filter_eq_append_iff.mp hfront
  obtain ⟨gap, later, rfl, hgap, -⟩ := List.filter_eq_cons_iff.mp hlater
  refine ⟨before ++ (passed ++ gap), name, later, ?_, ?_, hname⟩
  · rw [hsplit, hpassed]
    simp only [List.append_assoc]
  · refine hstarts.topLevel.append_of_edge?_eq_none fun u hu => ?_
    rw [significant_append] at hu
    rcases List.mem_append.mp hu with hu | hu
    · exact hnone u hu
    · obtain ⟨hu, hsignificant⟩ := List.mem_filter.mp hu
      exact absurd hsignificant (hgap u hu)

-- ---------------------------------------------------------------------------
-- Modules
-- ---------------------------------------------------------------------------

/-- A script that may be a module is one **if it holds a module statement**. -/
theorem isModule_iff_of_auto {options : AnalysisOptions} {a : Analysis}
    (h : analyze options script = .ok a) (hauto : options.sourceType = .auto) :
    a.isModule = true ↔ HasModuleStatement (tokenize script) := by
  obtain ⟨-, hbrackets, -⟩ := analyze_eq_ok_iff.mp h
  rw [isModule_eq_of_auto h hauto, Bool.not_eq_true', ← Bool.not_eq_true, List.isEmpty_iff,
    moduleStatements_eq_nil_iff (bracketError?_eq_none_iff.mp hbrackets), not_not]

-- ---------------------------------------------------------------------------
-- Scripts
-- ---------------------------------------------------------------------------

/-- Where the brackets of a script pair up, the search finds the index of every
token that **starts a top-level statement**, in order and once: no bracket is
open before it, and it is the first one or behind a `;`, a `\x7d` or a line
end.  So every declared name is an identifier at the top level, and the script
is a module by itself exactly if one of the statements starts as only those of
modules do. -/
theorem statement_starts_are_exact (script : Text)
    (h : bracketError? script.byteLength (significant (tokenize script)) = none) :
    (statementStarts (tokenize script)).Pairwise (· < ·) ∧
    (∀ i, i ∈ statementStarts (tokenize script) ↔
      ∃ before t after, tokenize script = before ++ t :: after ∧
        (significant before).length = i ∧ (significant (tokenize script))[i]? = some t ∧
        StartsStatement before t) ∧
    ∀ (options : AnalysisOptions) (a : Analysis), analyze options script = .ok a →
      (∀ d ∈ a.declarations, ∃ before name after, tokenize script = before ++ name :: after ∧
        Balanced (edges before) ∧ name.kind = .ident ∧ d.name = name.text ∧ d.span = name.span ∧
        script.slice? d.span.start d.span.stop = some d.name) ∧
      (options.sourceType = .auto →
        (a.isModule = true ↔ HasModuleStatement (tokenize script))) := by
  have hbalanced := bracketError?_eq_none_iff.mp h
  refine ⟨StatementSearch.pairwise_starts {} _, fun i => mem_statementStarts_iff hbalanced,
    fun options a ha => ⟨fun d hd => ?_, isModule_iff_of_auto ha⟩⟩
  rw [(eq_of_analyze_ok ha).2.1] at hd
  obtain ⟨before, name, after, hsplit, hbefore, hident, hname, hspan⟩ :=
    balanced_before_name hbalanced hd
  have hmem : name ∈ tokenize script := by
    rw [hsplit]
    exact List.mem_append_right before List.mem_cons_self
  refine ⟨before, name, after, hsplit, hbefore, hident, hname, hspan, ?_⟩
  rw [hspan, hname]
  exact (liesIn_of_mem_tokenize hmem).slice?_eq

/-- A line end between brackets, a `\x7d` and a `;`, a call of `import`, and an
export on a line of its own. -/
def bracketedLineEnd : Text :=
  "let a=\x7b\n\x7d;import(x)\nexport\x7bb\x7d".toList

/-- Statements start at `let`, at `;`, at `import` and at `export`, and the last
one makes the script a module. -/
theorem statement_starts_are_exact_bracketedLineEnd :
    statementStarts (tokenize bracketedLineEnd) = [0, 5, 6, 10] ∧
      (∃ before t after, tokenize bracketedLineEnd = before ++ t :: after ∧
        (significant before).length = 10 ∧
        (significant (tokenize bracketedLineEnd))[10]? = some t ∧ StartsStatement before t) ∧
      ∃ a, analyze {} bracketedLineEnd = .ok a ∧ a.isModule = true ∧
        HasModuleStatement (tokenize bracketedLineEnd) := by
  obtain ⟨-, hstarts, hanalysis⟩ :=
    statement_starts_are_exact bracketedLineEnd (by decide +kernel)
  have hindices : statementStarts (tokenize bracketedLineEnd) = [0, 5, 6, 10] := by
    decide +kernel
  have hmodule : (analyze {} bracketedLineEnd).toOption.any (·.isModule) = true := by
    decide +kernel
  refine ⟨hindices, (hstarts 10).mp (hindices ▸ by decide), ?_⟩
  cases ha : analyze {} bracketedLineEnd with
  | error e =>
    rw [ha] at hmodule
    cases hmodule
  | ok a =>
    rw [ha] at hmodule
    exact ⟨a, rfl, hmodule, ((hanalysis {} a ha).2 rfl).mp hmodule⟩

end FenceFacts
