import FenceFacts.Proofs.Acceptance

/-!
# FenceFacts — what the options decide

The options of an analysis decide whether a script is accepted, and nothing
else about it.  What is found in an accepted script does not depend on them,
except for whether it is a module, which the source type can settle beforehand.
The version of the language decides whether a template may stand in a script,
so it matters only to scripts in which nothing worse comes before the first
template.

## Results

* `analyze_of_auto_error`, `analyze_module_of_auto`, `analyze_script_of_auto` —
  the three source types.
* `analyze_eq_of_firstSuspect`, `analyze_of_template_first` — versions.
* `options_only_gate` — both together.
-/

namespace FenceFacts

variable {script : Text} {version version' : Nat} {sourceType : SourceType} {tokens : List Token}
  {t : Token}

-- ---------------------------------------------------------------------------
-- Source types
-- ---------------------------------------------------------------------------

section SourceTypes

variable {a : Analysis} {e : ScriptError}

/-- What is wrong with a script that may or may not be a module is **wrong with
it** in any case. -/
theorem analyze_of_auto_error (h : analyze ⟨version, .auto⟩ script = .error e)
    (sourceType : SourceType) : analyze ⟨version, sourceType⟩ script = .error e := by
  rw [analyze_eq] at h ⊢
  dsimp only at h ⊢
  cases htoken : tokenError? version (tokenize script) with
  | some e' =>
    rw [htoken] at h
    exact h
  | none =>
    rw [htoken] at h
    cases hbracket : bracketError? script.byteLength (significant (tokenize script)) with
    | some e' =>
      rw [hbracket] at h
      exact h
    | none =>
      rw [hbracket] at h
      cases h

/-- As a module a script is accepted with **the same findings**. -/
theorem analyze_module_of_auto (h : analyze ⟨version, .auto⟩ script = .ok a) :
    analyze ⟨version, .module⟩ script = .ok { a with isModule := true } := by
  obtain ⟨htoken, hbracket, -, hfound⟩ := analyze_eq_ok_iff.mp h
  exact analyze_eq_ok_iff.mpr ⟨htoken, hbracket, rfl, hfound⟩

/-- Where it may not be a module, a script is accepted as it is otherwise
**unless it is one**; then its first module statement is refused. -/
theorem analyze_script_of_auto (h : analyze ⟨version, .auto⟩ script = .ok a) :
    (a.isModule = false → analyze ⟨version, .script⟩ script = .ok a) ∧
    (a.isModule = true → ∃ before t after, tokenize script = before ++ t :: after ∧
      StartsModuleStatement before t after ∧
      (∀ before' t' after', tokenize script = before' ++ t' :: after' →
        StartsModuleStatement before' t' after' → before.length ≤ before'.length) ∧
      analyze ⟨version, .script⟩ script = .error ⟨.moduleStatement, t.span.start⟩) := by
  obtain ⟨htoken, hbracket, -, hfound⟩ := analyze_eq_ok_iff.mp h
  have hmodule := isModule_eq_of_auto h rfl
  cases hstatements : moduleStatements (tokenize script) with
  | nil =>
    rw [hstatements] at hmodule
    refine ⟨fun _ => analyze_eq_ok_iff.mpr ⟨htoken, hbracket, ?_, hfound⟩, fun htrue => ?_⟩
    · rw [hstatements, hmodule]
      rfl
    · rw [htrue] at hmodule
      cases hmodule
  | cons first others =>
    rw [hstatements] at hmodule
    refine ⟨fun hfalse => ?_, fun _ => ?_⟩
    · rw [hfalse] at hmodule
      cases hmodule
    · obtain ⟨before, after, hsplit, hstarts, hearlier⟩ :=
        exists_first_moduleStatement (bracketError?_eq_none_iff.mp hbracket) hstatements
      refine ⟨before, first, after, hsplit, hstarts, hearlier, ?_⟩
      have htoken : tokenError? version (tokenize script) = none := htoken
      rw [analyze_eq]
      dsimp only
      rw [htoken, hbracket, hstatements]
      rfl

end SourceTypes

-- ---------------------------------------------------------------------------
-- Versions
-- ---------------------------------------------------------------------------

/-- A literal or comment without its end, a character that starts no token, or
a template. -/
def Token.IsSuspect (t : Token) : Prop :=
  t.kind ∈ [.unterminatedString, .unterminatedBlockComment, .unterminatedTemplate,
    .unterminatedRegex, .unknown] ∨ t.kind = .template

instance : DecidablePred Token.IsSuspect := fun t =>
  inferInstanceAs (Decidable (t.kind ∈ [.unterminatedString, .unterminatedBlockComment,
    .unterminatedTemplate, .unterminatedRegex, .unknown] ∨ t.kind = .template))

/-- The first suspect token. -/
def FirstSuspect (tokens : List Token) (t : Token) : Prop :=
  ∃ before after, tokens = before ++ t :: after ∧ (∀ u ∈ before, ¬ u.IsSuspect) ∧ t.IsSuspect

theorem exists_firstSuspect (h : ¬ ∀ t ∈ tokens, ¬ t.IsSuspect) : ∃ t, FirstSuspect tokens t := by
  induction tokens with
  | nil => exact absurd (List.forall_mem_nil _) h
  | cons u tokens ih =>
    by_cases hu : u.IsSuspect
    · exact ⟨u, [], tokens, rfl, List.forall_mem_nil _, hu⟩
    · obtain ⟨t, before, after, rfl, hbefore, ht⟩ := ih fun hnone =>
        h (List.forall_mem_cons.mpr ⟨hu, hnone⟩)
      exact ⟨t, u :: before, after, rfl, List.forall_mem_cons.mpr ⟨hu, hbefore⟩, ht⟩

/-- Other tokens may stand in a script of any version. -/
theorem Token.offence?_of_not_isSuspect (h : ¬ t.IsSuspect) (version : Nat) :
    t.offence? version = none := by
  by_contra hoffence
  exact h ((Token.offends_iff.mpr hoffence).imp_right And.left)

/-- A suspect token other than a template may stand in none. -/
theorem Token.offence?_ne_none_of_isSuspect (h : t.IsSuspect) (hkind : t.kind ≠ .template)
    (version : Nat) : t.offence? version ≠ none :=
  Token.offends_iff.mp (Or.inl (h.resolve_right hkind))

/-- Only templates are judged by the version. -/
theorem Token.offence?_eq_of_ne_template (h : t.kind ≠ .template) (version version' : Nat) :
    t.offence? version = t.offence? version' := by
  rw [Token.offence?, Token.offence?]
  cases hk : t.kind <;> first | rfl | exact absurd hk h

theorem Token.offence?_eq_of_le (hversion : templateVersion ≤ version)
    (hversion' : templateVersion ≤ version') (t : Token) :
    t.offence? version = t.offence? version' := by
  by_cases hk : t.kind = .template
  · rw [Token.offence?, Token.offence?, hk]
    dsimp only
    rw [if_neg (Nat.not_lt.mpr hversion), if_neg (Nat.not_lt.mpr hversion')]
  · exact Token.offence?_eq_of_ne_template hk version version'

/-- The check of the tokens **goes on** behind those that are not suspect. -/
theorem tokenError?_append {before : List Token} (h : ∀ u ∈ before, ¬ u.IsSuspect) (version : Nat)
    (after : List Token) : tokenError? version (before ++ after) = tokenError? version after := by
  have hnone : tokenError? version before = none :=
    List.findSome?_eq_none_iff.mpr fun u hu => by
      rw [Token.offence?_of_not_isSuspect (h u hu)]
      rfl
  rw [tokenError?, List.findSome?_append, ← tokenError?, hnone]
  rfl

/-- A version matters to the check of the tokens only. -/
theorem analyze_congr
    (h : tokenError? version (tokenize script) = tokenError? version' (tokenize script))
    (sourceType : SourceType) :
    analyze ⟨version, sourceType⟩ script = analyze ⟨version', sourceType⟩ script := by
  rw [analyze_eq, analyze_eq]
  dsimp only
  rw [h]

/-- All versions with templates **agree**. -/
theorem analyze_eq_of_le (hversion : templateVersion ≤ version)
    (hversion' : templateVersion ≤ version') (sourceType : SourceType) (script : Text) :
    analyze ⟨version, sourceType⟩ script = analyze ⟨version', sourceType⟩ script := by
  refine analyze_congr ?_ sourceType
  rw [tokenError?, tokenError?]
  simp only [Token.offence?_eq_of_le hversion hversion']

/-- Any two versions **agree** on a script whose first suspect token, if there
is one, is no template. -/
theorem analyze_eq_of_firstSuspect
    (h : ∀ t, FirstSuspect (tokenize script) t → t.kind ≠ .template)
    (version version' : Nat) (sourceType : SourceType) :
    analyze ⟨version, sourceType⟩ script = analyze ⟨version', sourceType⟩ script := by
  refine analyze_congr ?_ sourceType
  by_cases hnone : ∀ t ∈ tokenize script, ¬ t.IsSuspect
  · have hno (version : Nat) : tokenError? version (tokenize script) = none := by
      have hgo := tokenError?_append hnone version []
      rwa [List.append_nil] at hgo
    rw [hno, hno]
  · obtain ⟨t, before, after, hsplit, hbefore, ht⟩ := exists_firstSuspect hnone
    have hkind := h t ⟨before, after, hsplit, hbefore, ht⟩
    obtain ⟨cause, hcause⟩ :=
      Option.ne_none_iff_exists'.mp (Token.offence?_ne_none_of_isSuspect ht hkind version)
    have hcause' := (Token.offence?_eq_of_ne_template hkind version' version).trans hcause
    rw [hsplit, tokenError?_append hbefore, tokenError?_append hbefore, tokenError?, tokenError?,
      List.findSome?_cons, List.findSome?_cons, hcause, hcause']
    rfl

/-- A version without templates **refuses** a script whose first suspect token
is one. -/
theorem analyze_of_template_first (h : FirstSuspect (tokenize script) t)
    (hkind : t.kind = .template) (hversion : version < templateVersion) (sourceType : SourceType) :
    analyze ⟨version, sourceType⟩ script =
      .error ⟨.unexpectedCharacter ['\x60'], t.span.start⟩ := by
  obtain ⟨before, after, hsplit, hbefore, -⟩ := h
  have hoffence : t.offence? version = some (.unexpectedCharacter ['\x60']) := by
    rw [Token.offence?, hkind]
    dsimp only
    rw [if_pos hversion]
  rw [analyze_eq]
  dsimp only
  rw [hsplit, tokenError?_append hbefore, tokenError?, List.findSome?_cons, hoffence]
  rfl

-- ---------------------------------------------------------------------------
-- Options
-- ---------------------------------------------------------------------------

/-- Options **only gate**.  Where a script may or may not be a module, it has
an error that it has in any case, or it is accepted as a module with the same
findings, and where it may not be one as well, unless it is one: then the error
is at its first module statement.  Versions agree from 2015 on, and an earlier
one agrees with them unless the first suspect token is a template, where it
has its error. -/
theorem options_only_gate (script : Text) :
    (∀ (version : Nat) (e : ScriptError), analyze ⟨version, .auto⟩ script = .error e →
      analyze ⟨version, .script⟩ script = .error e ∧
      analyze ⟨version, .module⟩ script = .error e) ∧
    (∀ (version : Nat) (a : Analysis), analyze ⟨version, .auto⟩ script = .ok a →
      analyze ⟨version, .module⟩ script = .ok { a with isModule := true } ∧
      (a.isModule = false → analyze ⟨version, .script⟩ script = .ok a) ∧
      (a.isModule = true → ∃ before t after, tokenize script = before ++ t :: after ∧
        StartsModuleStatement before t after ∧
        (∀ before' t' after', tokenize script = before' ++ t' :: after' →
          StartsModuleStatement before' t' after' → before.length ≤ before'.length) ∧
        analyze ⟨version, .script⟩ script = .error ⟨.moduleStatement, t.span.start⟩)) ∧
    ∀ sourceType : SourceType,
      (∀ version version' : Nat, 2015 ≤ version → 2015 ≤ version' →
        analyze ⟨version, sourceType⟩ script = analyze ⟨version', sourceType⟩ script) ∧
      ∀ version version' : Nat, version < 2015 → 2015 ≤ version' →
        (∀ t, FirstSuspect (tokenize script) t → t.kind = .template →
          analyze ⟨version, sourceType⟩ script =
            .error ⟨.unexpectedCharacter ['\x60'], t.span.start⟩) ∧
        ((∀ t, FirstSuspect (tokenize script) t → t.kind ≠ .template) →
          analyze ⟨version, sourceType⟩ script = analyze ⟨version', sourceType⟩ script) := by
  refine ⟨fun version e h => ⟨analyze_of_auto_error h _, analyze_of_auto_error h _⟩,
    fun version a h => ⟨analyze_module_of_auto h, analyze_script_of_auto h⟩,
    fun sourceType => ⟨fun version version' hversion hversion' => ?_,
      fun version version' hversion _ => ⟨fun t ht hkind => ?_, fun h => ?_⟩⟩⟩
  · exact analyze_eq_of_le hversion hversion' sourceType script
  · exact analyze_of_template_first ht hkind hversion sourceType
  · exact analyze_eq_of_firstSuspect h version version' sourceType

/-- A template and an export. -/
def templateBeforeExport : Text :=
  ['\x60', 'a', '\x60', '\n', 'e', 'x', 'p', 'o', 'r', 't', ' ', 'b']

/-- It is a module in every version that has templates, and has its error at
the template in one that has none. -/
theorem options_only_gate_templateBeforeExport :
    (∃ a, analyze ⟨2015, .auto⟩ templateBeforeExport = .ok a ∧
      analyze ⟨2015, .module⟩ templateBeforeExport = .ok { a with isModule := true }) ∧
    analyze ⟨2024, .auto⟩ templateBeforeExport = analyze ⟨2015, .auto⟩ templateBeforeExport ∧
    analyze ⟨5, .auto⟩ templateBeforeExport = .error ⟨.unexpectedCharacter ['\x60'], 0⟩ ∧
    analyze ⟨5, .script⟩ templateBeforeExport = .error ⟨.unexpectedCharacter ['\x60'], 0⟩ := by
  obtain ⟨hfails, haccepted, hversions⟩ := options_only_gate templateBeforeExport
  obtain ⟨a, ha, -⟩ := exists_analysis_of_accepted
    (show (analyze ⟨2015, .auto⟩ templateBeforeExport).toOption.isSome = true by decide +kernel)
  have hfirst : FirstSuspect (tokenize templateBeforeExport)
      ⟨.template, ['\x60', 'a', '\x60'], 0, 3⟩ :=
    ⟨[], (tokenize templateBeforeExport).tail, by decide +kernel, List.forall_mem_nil _,
      Or.inr rfl⟩
  have htemplate := ((hversions .auto).2 5 2015 (by decide) (by decide)).1 _ hfirst rfl
  exact ⟨⟨a, ha, (haccepted 2015 a ha).1⟩, (hversions .auto).1 2024 2015 (by decide) (by decide),
    htemplate, (hfails 5 _ htemplate).1⟩

end FenceFacts
