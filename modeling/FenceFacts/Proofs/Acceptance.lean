import FenceFacts.Proofs.TopLevel

/-!
# FenceFacts — which scripts are accepted

The tokens of a script tell whether it is accepted, and where its error is.
Three things are asked of them: that none may not stand in a script, that the
brackets are a balanced word, and, in a script that is no module, that no
top-level statement is one of a module.  What is asked first is reported
first: an error of one sort stands where the sort is first met, and a later
sort counts only in a script that has none of the earlier ones.

## Results

* `tokenError?_eq_none_iff`, `exists_first_offence` — tokens that may not stand there.
* `moduleStatements_eq_nil_iff`, `exists_first_moduleStatement` — module statements.
* `accepts_exactly` — which scripts are accepted, and the errors of the others.
-/

namespace FenceFacts

-- ---------------------------------------------------------------------------
-- Tokens that may not stand in a script
-- ---------------------------------------------------------------------------

/-- A literal or comment without its end, a character that starts no token, or
a template in a version of the language that has none. -/
def Token.Offends (ecmaVersion : Nat) (t : Token) : Prop :=
  t.kind ∈ [.unterminatedString, .unterminatedBlockComment, .unterminatedTemplate,
    .unterminatedRegex, .unknown] ∨ t.kind = .template ∧ ecmaVersion < 2015

section Offences

variable {ecmaVersion : Nat} {tokens : List Token} {t : Token}

theorem Token.offends_iff : t.Offends ecmaVersion ↔ t.offence? ecmaVersion ≠ none := by
  rw [Token.Offends, Token.offence?]
  cases t.kind with
  | template =>
    dsimp only
    split
    · next h => exact iff_of_true (Or.inr ⟨rfl, h⟩) (Option.some_ne_none _)
    · next h => exact iff_of_false (by simpa [templateVersion] using h) (· rfl)
  | _ => simp

theorem tokenError?_eq_none_iff :
    tokenError? ecmaVersion tokens = none ↔ ∀ t ∈ tokens, ¬ t.Offends ecmaVersion := by
  rw [tokenError?, List.findSome?_eq_none_iff]
  refine forall₂_congr fun t _ => ?_
  rw [Option.map_eq_none_iff, Token.offends_iff, not_not]

/-- The check of the tokens reports **the first** that offends. -/
theorem exists_first_offence (h : ¬ ∀ t ∈ tokens, ¬ t.Offends ecmaVersion) :
    ∃ before t after cause, tokens = before ++ t :: after ∧
      (∀ u ∈ before, ¬ u.Offends ecmaVersion) ∧ t.Offends ecmaVersion ∧
      t.offence? ecmaVersion = some cause ∧
      tokenError? ecmaVersion tokens = some ⟨cause, t.span.start⟩ := by
  rw [← tokenError?_eq_none_iff] at h
  obtain ⟨e, he⟩ := Option.ne_none_iff_exists'.mp h
  obtain ⟨before, t, after, htokens, ht, hbefore⟩ := List.findSome?_eq_some_iff.mp he
  obtain ⟨cause, hcause, rfl⟩ := Option.map_eq_some_iff.mp ht
  refine ⟨before, t, after, cause, htokens, ?_, ?_, hcause, he⟩
  · exact tokenError?_eq_none_iff.mp (List.findSome?_eq_none_iff.mpr hbefore)
  · rw [Token.offends_iff, hcause]
    exact Option.some_ne_none cause

end Offences

-- ---------------------------------------------------------------------------
-- Module statements
-- ---------------------------------------------------------------------------

/-- A top-level statement that only a module may hold starts with this token.
`import(…)` and `import.meta` are expressions. -/
structure StartsModuleStatement (before : List Token) (t : Token) (after : List Token) :
    Prop where
  starts : StartsStatement before t
  ident : t.kind = .ident
  keyword : t.reads "import" = true ∨ t.reads "export" = true
  /-- What comes next does not make it an expression. -/
  statement : ∀ next ∈ (significant after).head?,
    next.kind ≠ .opening .round ∧ ¬ next.reads "." = true

/-- Some top-level statement is one that only a module may hold. -/
def HasModuleStatement (tokens : List Token) : Prop :=
  ∃ before t after, tokens = before ++ t :: after ∧ StartsModuleStatement before t after

theorem isModuleStatement_cons_iff {t : Token} {next : List Token} :
    isModuleStatement (t :: next) = true ↔
      t.kind = .ident ∧ (t.reads "import" = true ∨ t.reads "export" = true) ∧
        ∀ n ∈ next.head?, n.kind ≠ .opening .round ∧ ¬ n.reads "." = true := by
  rw [isModuleStatement, Bool.and_eq_true, Bool.and_eq_true, beq_iff_eq, Bool.or_eq_true,
    Bool.not_eq_true', and_assoc]
  refine and_congr_right fun _ => and_congr_right fun _ => ?_
  cases next with
  | nil => exact iff_of_true rfl nofun
  | cons n next => simp

section ModuleStatements

variable {script : Text} {before after : List Token} {t : Token}

/-- What the search takes for a module statement is one. -/
theorem startsModuleStatement_iff (hbalanced : Balanced (edges (tokenize script)))
    (hsplit : tokenize script = before ++ t :: after) :
    StartsModuleStatement before t after ↔
      (StatementSearch.behind before).isStart t = true ∧
        moduleStatement? (significant (t :: after)) = some t := by
  rw [StatementSearch.isStart_iff_of_balanced hbalanced hsplit, moduleStatement?]
  constructor
  · rintro ⟨hstarts, hident, hkeyword, hstatement⟩
    rw [significant_cons_of_pos hstarts.significant,
      if_pos (isModuleStatement_cons_iff.mpr ⟨hident, hkeyword, hstatement⟩)]
    exact ⟨hstarts, rfl⟩
  · rintro ⟨hstarts, hmodule⟩
    rw [significant_cons_of_pos hstarts.significant] at hmodule
    obtain ⟨hmodule, -⟩ := Option.ite_none_right_eq_some.mp hmodule
    obtain ⟨hident, hkeyword, hstatement⟩ := isModuleStatement_cons_iff.mp hmodule
    exact ⟨hstarts, hident, hkeyword, hstatement⟩

/-- A module statement is known by its first token. -/
theorem eq_of_moduleStatement? {s : StatementSearch} {found : Token}
    (hstart : s.isStart t = true)
    (hfound : moduleStatement? (significant (t :: after)) = some found) : found = t := by
  rw [moduleStatement?, significant_cons_of_pos (Bool.and_eq_true_iff.mp hstart).1] at hfound
  exact (Option.some.inj (Option.ite_none_right_eq_some.mp hfound).2).symm

theorem moduleStatements_eq_nil_iff (hbalanced : Balanced (edges (tokenize script))) :
    moduleStatements (tokenize script) = [] ↔ ¬ HasModuleStatement (tokenize script) := by
  rw [moduleStatements_eq, List.filterMap_eq_nil_iff]
  constructor
  · rintro hnone ⟨before, t, after, hsplit, hmodule⟩
    obtain ⟨hstart, hfound⟩ := (startsModuleStatement_iff hbalanced hsplit).mp hmodule
    have hmem : significant (t :: after) ∈ statements (tokenize script) :=
      StatementSearch.mem_statementsFrom_iff.mpr ⟨before, t, after, hsplit, hstart, rfl⟩
    rw [hnone _ hmem] at hfound
    cases hfound
  · intro hnone w hw
    by_contra hsome
    obtain ⟨before, t, after, hsplit, hstart, rfl⟩ :=
      StatementSearch.mem_statementsFrom_iff.mp hw
    obtain ⟨found, hfound⟩ := Option.ne_none_iff_exists'.mp hsome
    obtain rfl := eq_of_moduleStatement? hstart hfound
    exact hnone ⟨before, found, after, hsplit,
      (startsModuleStatement_iff hbalanced hsplit).mpr ⟨hstart, hfound⟩⟩

/-- Of the module statements the search finds **the first** first. -/
theorem exists_first_moduleStatement (hbalanced : Balanced (edges (tokenize script)))
    {first : Token} {others : List Token}
    (h : moduleStatements (tokenize script) = first :: others) :
    ∃ before after, tokenize script = before ++ first :: after ∧
      StartsModuleStatement before first after ∧
      ∀ before' t' after', tokenize script = before' ++ t' :: after' →
        StartsModuleStatement before' t' after' → before.length ≤ before'.length := by
  rw [moduleStatements_eq] at h
  obtain ⟨before, t, after, hsplit, hstart, hfound, hearlier⟩ :=
    StatementSearch.exists_first_of_filterMap_statementsFrom h
  obtain rfl := eq_of_moduleStatement? hstart hfound
  refine ⟨before, after, hsplit, ?_, fun before' t' after' hsplit' hmodule => ?_⟩
  · exact (startsModuleStatement_iff hbalanced hsplit).mpr ⟨hstart, hfound⟩
  · obtain ⟨hstart', hfound'⟩ := (startsModuleStatement_iff hbalanced hsplit').mp hmodule
    refine hearlier before' t' after' hsplit' hstart' ?_
    rw [hfound']
    exact Option.some_ne_none t'

/-- A script that may be a module is one if any is found. -/
theorem isModule_eq_of_auto {options : AnalysisOptions} {a : Analysis}
    (h : analyze options script = .ok a) (hauto : options.sourceType = .auto) :
    a.isModule = !(moduleStatements (tokenize script)).isEmpty := by
  obtain ⟨-, -, hmodule, -⟩ := analyze_eq_ok_iff.mp h
  rw [hauto] at hmodule
  exact (Except.ok.inj hmodule).symm

end ModuleStatements

-- ---------------------------------------------------------------------------
-- Acceptance
-- ---------------------------------------------------------------------------

section Acceptance

variable {options : AnalysisOptions} {script : Text}

theorem analyze_of_offence (h : ¬ ∀ t ∈ tokenize script, ¬ t.Offends options.ecmaVersion) :
    ∃ before t after cause, tokenize script = before ++ t :: after ∧
      (∀ u ∈ before, ¬ u.Offends options.ecmaVersion) ∧ t.Offends options.ecmaVersion ∧
      t.offence? options.ecmaVersion = some cause ∧
      analyze options script = .error ⟨cause, t.span.start⟩ := by
  obtain ⟨before, t, after, cause, hsplit, hbefore, ht, hcause, herror⟩ := exists_first_offence h
  refine ⟨before, t, after, cause, hsplit, hbefore, ht, hcause, ?_⟩
  rw [analyze_eq, herror]

theorem analyze_of_mismatch (htokens : ∀ t ∈ tokenize script, ¬ t.Offends options.ecmaVersion)
    (h : ¬ Balanced (edges (tokenize script))) :
    (∃ before t after, tokenize script = before ++ t :: after ∧ Mismatches before t ∧
      analyze options script = .error ⟨.unexpectedToken, t.span.start⟩) ∨
    (∀ before t after, tokenize script = before ++ t :: after → ¬ Mismatches before t) ∧
      analyze options script = .error ⟨.unexpectedEnd, script.byteLength⟩ := by
  rw [analyze_eq, tokenError?_eq_none_iff.mpr htokens]
  by_cases hcompletable : Completable (edges (tokenize script))
  · refine Or.inr ⟨fun before t after hsplit hmismatch => hmismatch.not_completable ?_, ?_⟩
    · rw [hsplit, ← List.singleton_append, ← List.append_assoc, edges_append] at hcompletable
      exact hcompletable.of_append
    · rw [bracketError?_of_completable hcompletable h]
  · obtain ⟨before, t, after, hsplit, hmismatch, herror⟩ := exists_mismatch script.byteLength hcompletable
    refine Or.inl ⟨before, t, after, hsplit, hmismatch, ?_⟩
    rw [herror]

/-- With no token that offends and balanced brackets, a script is accepted
unless it may not be a module but holds a statement of one. -/
theorem analyze_of_balanced (htokens : ∀ t ∈ tokenize script, ¬ t.Offends options.ecmaVersion)
    (hbalanced : Balanced (edges (tokenize script))) :
    (∃ a, analyze options script = .ok a) ∧
        ¬ (options.sourceType = .script ∧ HasModuleStatement (tokenize script)) ∨
      options.sourceType = .script ∧ ∃ before t after, tokenize script = before ++ t :: after ∧
        StartsModuleStatement before t after ∧
        (∀ before' t' after', tokenize script = before' ++ t' :: after' →
          StartsModuleStatement before' t' after' → before.length ≤ before'.length) ∧
        analyze options script = .error ⟨.moduleStatement, t.span.start⟩ := by
  rw [analyze_eq, tokenError?_eq_none_iff.mpr htokens, bracketError?_eq_none_iff.mpr hbalanced]
  dsimp only
  cases hmodules : moduleStatements (tokenize script) with
  | nil =>
    have hnone := (moduleStatements_eq_nil_iff hbalanced).mp hmodules
    refine Or.inl ⟨?_, fun h => hnone h.2⟩
    cases options.sourceType <;> exact ⟨_, rfl⟩
  | cons first others =>
    cases htype : options.sourceType with
    | script =>
      obtain ⟨before, after, hsplit, hmodule, hearlier⟩ :=
        exists_first_moduleStatement hbalanced hmodules
      exact Or.inr ⟨rfl, before, first, after, hsplit, hmodule, hearlier, rfl⟩
    | module => exact Or.inl ⟨⟨_, rfl⟩, fun h => nomatch h.1⟩
    | auto => exact Or.inl ⟨⟨_, rfl⟩, fun h => nomatch h.1⟩

end Acceptance

/-- A script is accepted **exactly if** no token offends, its brackets are a
balanced word, and it holds no module statement or may be a module.  The
first of these that fails gives the error: it is at the first token that
offends; at the first closing bracket with which the brackets cannot be
completed to a balanced word any more, or at the end of the script if there is
none; at the first module statement. -/
theorem accepts_exactly (options : AnalysisOptions) (script : Text) :
    ((∃ a, analyze options script = .ok a) ↔
      (∀ t ∈ tokenize script, ¬ t.Offends options.ecmaVersion) ∧
      Balanced (edges (tokenize script)) ∧
      ¬ (options.sourceType = .script ∧ HasModuleStatement (tokenize script))) ∧
    ((¬ ∀ t ∈ tokenize script, ¬ t.Offends options.ecmaVersion) →
      ∃ before t after cause, tokenize script = before ++ t :: after ∧
        (∀ u ∈ before, ¬ u.Offends options.ecmaVersion) ∧ t.Offends options.ecmaVersion ∧
        t.offence? options.ecmaVersion = some cause ∧
        analyze options script = .error ⟨cause, t.span.start⟩) ∧
    ((∀ t ∈ tokenize script, ¬ t.Offends options.ecmaVersion) →
      ¬ Balanced (edges (tokenize script)) →
      (∃ before t after, tokenize script = before ++ t :: after ∧ Mismatches before t ∧
        analyze options script = .error ⟨.unexpectedToken, t.span.start⟩) ∨
      (∀ before t after, tokenize script = before ++ t :: after → ¬ Mismatches before t) ∧
        analyze options script = .error ⟨.unexpectedEnd, script.byteLength⟩) ∧
    ((∀ t ∈ tokenize script, ¬ t.Offends options.ecmaVersion) →
      Balanced (edges (tokenize script)) →
      options.sourceType = .script → HasModuleStatement (tokenize script) →
      ∃ before t after, tokenize script = before ++ t :: after ∧
        StartsModuleStatement before t after ∧
        (∀ before' t' after', tokenize script = before' ++ t' :: after' →
          StartsModuleStatement before' t' after' → before.length ≤ before'.length) ∧
        analyze options script = .error ⟨.moduleStatement, t.span.start⟩) := by
  refine ⟨⟨?_, ?_⟩, analyze_of_offence, analyze_of_mismatch, ?_⟩
  · rintro ⟨a, haccepted⟩
    -- each condition that fails is an error
    have htokens : ∀ t ∈ tokenize script, ¬ t.Offends options.ecmaVersion := by
      by_contra h
      obtain ⟨before, t, after, cause, -, -, -, -, herror⟩ := analyze_of_offence h
      rw [herror] at haccepted
      cases haccepted
    have hbalanced : Balanced (edges (tokenize script)) := by
      by_contra h
      rcases analyze_of_mismatch htokens h with ⟨before, t, after, -, -, herror⟩ | ⟨-, herror⟩
      all_goals
        rw [herror] at haccepted
        cases haccepted
    rcases analyze_of_balanced htokens hbalanced with
      ⟨-, hmodule⟩ | ⟨-, before, t, after, -, -, -, herror⟩
    · exact ⟨htokens, hbalanced, hmodule⟩
    · rw [herror] at haccepted
      cases haccepted
  · rintro ⟨htokens, hbalanced, hmodule⟩
    rcases analyze_of_balanced htokens hbalanced with
      ⟨haccepted, -⟩ | ⟨htype, before, t, after, hsplit, hstarts, -⟩
    · exact haccepted
    · exact absurd ⟨htype, before, t, after, hsplit, hstarts⟩ hmodule
  · intro htokens hbalanced htype hmodule
    rcases analyze_of_balanced htokens hbalanced with ⟨-, hnone⟩ | ⟨-, herror⟩
    · exact absurd ⟨htype, hmodule⟩ hnone
    · exact herror

/-- Brackets in a string and in a comment, and an export on the second line. -/
def exportBehindString : Text :=
  ['"', '(', '"', ';', '/', '*', ']', '*', '/', '\n', 'e', 'x', 'p', 'o', 'r', 't', ' ', 'y']

/-- Neither bracket counts, and the script is a module: it is accepted unless
it may not be one. -/
theorem accepts_exactly_exportBehindString :
    (∃ a, analyze {} exportBehindString = .ok a) ∧
    (∃ before t after, tokenize exportBehindString = before ++ t :: after ∧
      StartsModuleStatement before t after ∧
      (∀ before' t' after', tokenize exportBehindString = before' ++ t' :: after' →
        StartsModuleStatement before' t' after' → before.length ≤ before'.length) ∧
      analyze { sourceType := .script } exportBehindString = .error ⟨.moduleStatement, t.span.start⟩) ∧
    analyze { sourceType := .script } exportBehindString = .error ⟨.moduleStatement, 10⟩ := by
  have htokens : ∀ t ∈ tokenize exportBehindString, ¬ t.Offends 2020 :=
    tokenError?_eq_none_iff.mp (by decide +kernel)
  have hbalanced : Balanced (edges (tokenize exportBehindString)) :=
    balanced_iff.mpr (by decide +kernel)
  have hmodule : HasModuleStatement (tokenize exportBehindString) := by
    by_contra hnone
    have hnil := (moduleStatements_eq_nil_iff hbalanced).mpr hnone
    exact absurd hnil (by decide +kernel)
  refine ⟨?_, ?_, by decide +kernel⟩
  · exact (accepts_exactly {} exportBehindString).1.mpr ⟨htokens, hbalanced, fun h => nomatch h.1⟩
  · exact (accepts_exactly { sourceType := .script } exportBehindString).2.2.2 htokens hbalanced rfl
      hmodule

end FenceFacts
