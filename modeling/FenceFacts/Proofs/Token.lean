import FenceFacts.Proofs.Offset
import FenceFacts.Script.Analysis

/-!
# FenceFacts — where tokens and errors lie

The span of a token says where in the script its text stands, and a token is
never empty.  Whatever else an analysis reports a place for takes that place
from a token: a declaration the span of the name it binds, an error the start
of the token at fault, unless it lies at the end of the script.

## Results

* `exists_nextLexeme_of_mem`   — a token is the lexeme at its place.
* `liesIn_of_mem_tokenize`     — tokens stand where their spans say.
* `exists_token_of_mem_declarations` — a declaration has the place of a token.
* `isBoundary_of_analyze_error` — an error lies between two characters.
-/

namespace FenceFacts

-- ---------------------------------------------------------------------------
-- Places of tokens
-- ---------------------------------------------------------------------------

/-- A token is the lexeme that is read at its place. -/
theorem exists_nextLexeme_of_mem_tokenizeFrom {offset : Nat} {regexAllowed : Bool}
    {previous : Option Token} {rest : Text} {t : Token} :
    t ∈ tokenizeFrom offset regexAllowed previous rest →
      ∀ before : Text, offset = before.byteLength →
        ∃ (before' : Text) (regexAllowed' : Bool) (c : Char) (cs : Text),
          before ++ rest = before' ++ c :: cs ∧
          t.kind = (nextLexeme regexAllowed' c cs).kind ∧
          t.text = (nextLexeme regexAllowed' c cs).text ∧
          t.span = ⟨before'.byteLength, before'.byteLength + t.text.byteLength⟩ := by
  fun_induction tokenizeFrom offset regexAllowed previous rest with
  | case1 => exact fun h => absurd h List.not_mem_nil
  | case2 offset regexAllowed previous c cs lexeme token regexAllowed' ih =>
    intro h before hoffset
    rcases List.mem_cons.mp h with rfl | h
    · exact ⟨before, regexAllowed, c, cs, rfl, rfl, rfl, by rw [← hoffset]⟩
    · -- the tokens behind the first one are read in what it leaves
      have hsplit : c :: cs = lexeme.text ++ lexeme.rest :=
        (nextLexeme_text_append_rest regexAllowed c cs).symm
      have hstop : token.span.stop = Text.byteLength (before ++ lexeme.text) := by
        rw [Text.byteLength_append, ← hoffset]
      rw [hsplit, ← List.append_assoc]
      exact ih h _ hstop

theorem exists_nextLexeme_of_mem {script : Text} {t : Token} (h : t ∈ tokenize script) :
    ∃ (before : Text) (regexAllowed : Bool) (c : Char) (cs : Text), script = before ++ c :: cs ∧
      t.kind = (nextLexeme regexAllowed c cs).kind ∧
      t.text = (nextLexeme regexAllowed c cs).text ∧
      t.span = ⟨before.byteLength, before.byteLength + t.text.byteLength⟩ :=
  exists_nextLexeme_of_mem_tokenizeFrom h [] rfl

/-- The script holds the text of the token where its span says. -/
def Token.LiesIn (script : Text) (t : Token) : Prop :=
  t.text ≠ [] ∧ ∃ before after, script = before ++ (t.text ++ after) ∧
    t.span = ⟨before.byteLength, before.byteLength + t.text.byteLength⟩

/-- Tokens stand where their spans say. -/
theorem liesIn_of_mem_tokenize {script : Text} {t : Token} (h : t ∈ tokenize script) :
    t.LiesIn script := by
  obtain ⟨before, regexAllowed, c, cs, rfl, -, htext, hspan⟩ := exists_nextLexeme_of_mem h
  refine ⟨?_, before, (nextLexeme regexAllowed c cs).rest, ?_, hspan⟩
  · rw [htext]
    exact nextLexeme_text_ne_nil regexAllowed c cs
  · rw [htext, nextLexeme_text_append_rest]

theorem Token.LiesIn.isBoundary_start {script : Text} {t : Token} (h : t.LiesIn script) :
    script.IsBoundary t.span.start := by
  obtain ⟨-, before, after, rfl, hspan⟩ := h
  rw [hspan]
  exact Text.isBoundary_append before _

theorem mem_of_mem_significant {tokens : List Token} {t : Token} (h : t ∈ significant tokens) :
    t ∈ tokens :=
  List.mem_of_mem_filter h

-- ---------------------------------------------------------------------------
-- Declarations
-- ---------------------------------------------------------------------------

theorem skipWord_subset (word : String) (tokens : List Token) :
    skipWord word tokens ⊆ tokens := by
  cases tokens with
  | nil => exact List.Subset.refl []
  | cons t ts =>
    rw [skipWord]
    split
    · exact List.subset_cons_self t ts
    · exact List.Subset.refl _

theorem skipModifiers_subset (tokens : List Token) : skipModifiers tokens ⊆ tokens := by
  have hexport := skipWord_subset "export" tokens
  unfold skipModifiers
  refine List.Subset.trans (skipWord_subset "async" _) ?_
  split
  · exact List.Subset.trans (skipWord_subset "default" _) hexport
  · exact hexport

/-- A declaration has the name and the place of a token. -/
theorem exists_token_of_declarationAt? {tokens : List Token} {d : Declaration}
    (h : declarationAt? tokens = some d) :
    ∃ t ∈ tokens, t.kind = .ident ∧ d.name = t.text ∧ d.span = t.span := by
  have hsub := skipModifiers_subset tokens
  unfold declarationAt? at h
  split at h
  · exact absurd h (by simp)
  · next t ts hskip =>
    rw [hskip] at hsub
    obtain ⟨kind, -, h⟩ := Option.bind_eq_some_iff.mp h
    obtain ⟨name, hname, h⟩ := Option.bind_eq_some_iff.mp h
    have hmem : name ∈ ts := by
      have := List.mem_of_mem_head? hname
      split at this
      · exact skipWord_subset "*" ts this
      · exact this
    split at h
    · next hkind =>
      obtain rfl := Option.some.inj h
      exact ⟨name, hsub (List.mem_cons_of_mem t hmem), hkind, rfl, rfl⟩
    · exact absurd h (by simp)

theorem exists_token_of_mem_declarations {tokens : List Token} {d : Declaration}
    (h : d ∈ declarations tokens) :
    ∃ t ∈ tokens, t.kind = .ident ∧ d.name = t.text ∧ d.span = t.span := by
  obtain ⟨i, -, hi⟩ := List.mem_filterMap.mp h
  obtain ⟨t, ht, hplace⟩ := exists_token_of_declarationAt? hi
  exact ⟨t, mem_of_mem_significant (List.mem_of_mem_drop ht), hplace⟩

theorem mem_of_mem_moduleStatements {tokens : List Token} {t : Token}
    (h : t ∈ moduleStatements tokens) : t ∈ tokens := by
  obtain ⟨i, -, hi⟩ := List.mem_filterMap.mp h
  split at hi
  · exact mem_of_mem_significant (List.mem_of_getElem? hi)
  · exact absurd hi (by simp)

-- ---------------------------------------------------------------------------
-- Errors
-- ---------------------------------------------------------------------------

theorem exists_token_of_tokenError? {ecmaVersion : Nat} {tokens : List Token} {e : ScriptError}
    (h : tokenError? ecmaVersion tokens = some e) : ∃ t ∈ tokens, e.offset = t.span.start := by
  obtain ⟨t, ht, he⟩ := List.exists_of_findSome?_eq_some h
  obtain ⟨cause, -, rfl⟩ := Option.map_eq_some_iff.mp he
  exact ⟨t, ht, rfl⟩

theorem exists_token_of_bracketErrorFrom? {stop : Nat} {unclosed : List Bracket}
    {tokens : List Token} {e : ScriptError} :
    bracketErrorFrom? stop unclosed tokens = some e →
      e.offset = stop ∨ ∃ t ∈ tokens, e.offset = t.span.start := by
  have later {t : Token} {ts : List Token} :
      (e.offset = stop ∨ ∃ t' ∈ ts, e.offset = t'.span.start) →
        e.offset = stop ∨ ∃ t' ∈ t :: ts, e.offset = t'.span.start := by
    rintro (hstop | ⟨t', ht', hoffset⟩)
    · exact Or.inl hstop
    · exact Or.inr ⟨t', List.mem_cons_of_mem t ht', hoffset⟩
  have here {t : Token} {ts : List Token}
      (he : some (ScriptError.mk .unexpectedToken t.span.start) = some e) :
      e.offset = stop ∨ ∃ t' ∈ t :: ts, e.offset = t'.span.start := by
    obtain rfl := Option.some.inj he
    exact Or.inr ⟨t, List.mem_cons_self, rfl⟩
  fun_induction bracketErrorFrom? stop unclosed tokens with
  | case1 => exact fun h => absurd h (by simp)
  | case2 =>
    intro h
    obtain rfl := Option.some.inj h
    exact Or.inl rfl
  | case3 _ _ _ _ _ ih => exact fun h => later (ih h)
  | case4 => exact here
  | case5 _ _ _ _ _ ih => exact fun h => later (ih h)
  | case6 => exact here
  | case7 _ _ _ _ _ _ ih => exact fun h => later (ih h)

/-- The three checks of an analysis, one after the other. -/
theorem analyze_eq (options : AnalysisOptions) (script : Text) :
    analyze options script =
      match tokenError? options.ecmaVersion (tokenize script) with
      | some e => .error e
      | none =>
        match bracketError? script.byteLength (significant (tokenize script)) with
        | some e => .error e
        | none =>
          match resolveModule options.sourceType (moduleStatements (tokenize script)) with
          | .error e => .error e
          | .ok isModule => .ok {
              tokens := tokenize script
              declarations := declarations (tokenize script)
              isModule
              lines := countLines (.ofText script) (tokenize script) } := by
  simp only [analyze, reject]
  cases tokenError? options.ecmaVersion (tokenize script) with
  | some e => rfl
  | none =>
    cases bracketError? script.byteLength (significant (tokenize script)) with
    | some e => rfl
    | none => cases resolveModule options.sourceType (moduleStatements (tokenize script)) <;> rfl

/-- A script is accepted when no check finds anything. -/
theorem analyze_eq_ok_iff {options : AnalysisOptions} {script : Text} {a : Analysis} :
    analyze options script = .ok a ↔
      tokenError? options.ecmaVersion (tokenize script) = none ∧
      bracketError? script.byteLength (significant (tokenize script)) = none ∧
      resolveModule options.sourceType (moduleStatements (tokenize script)) = .ok a.isModule ∧
      a.tokens = tokenize script ∧ a.declarations = declarations (tokenize script) ∧
      a.lines = countLines (.ofText script) (tokenize script) := by
  rw [analyze_eq]
  cases tokenError? options.ecmaVersion (tokenize script) with
  | some e => exact iff_of_false nofun fun h => nomatch h.1
  | none =>
    cases bracketError? script.byteLength (significant (tokenize script)) with
    | some e => exact iff_of_false nofun fun h => nomatch h.2.1
    | none =>
      cases resolveModule options.sourceType (moduleStatements (tokenize script)) with
      | error e => exact iff_of_false nofun fun h => nomatch h.2.2.1
      | ok isModule =>
        obtain ⟨tokens, declarations, isModule', lines⟩ := a
        simp only [Except.ok.injEq, Analysis.mk.injEq, true_and]
        constructor
        · rintro ⟨rfl, rfl, rfl, rfl⟩
          exact ⟨rfl, rfl, rfl, rfl⟩
        · rintro ⟨rfl, rfl, rfl, rfl⟩
          exact ⟨rfl, rfl, rfl, rfl⟩

/-- What an accepted script is known by. -/
theorem eq_of_analyze_ok {options : AnalysisOptions} {script : Text} {a : Analysis}
    (h : analyze options script = .ok a) :
    a.tokens = tokenize script ∧ a.declarations = declarations (tokenize script) ∧
      a.lines = countLines (.ofText script) (tokenize script) :=
  (analyze_eq_ok_iff.mp h).2.2.2

theorem exists_analysis_of_accepted {options : AnalysisOptions} {script : Text}
    (h : (analyze options script).toOption.isSome = true) :
    ∃ a, analyze options script = .ok a ∧ a.tokens = tokenize script ∧
      a.declarations = declarations (tokenize script) := by
  cases ha : analyze options script with
  | error e =>
    rw [ha] at h
    cases h
  | ok a =>
    obtain ⟨htokens, hdeclarations, -⟩ := eq_of_analyze_ok ha
    exact ⟨a, rfl, htokens, hdeclarations⟩

theorem exists_token_of_resolveModule {sourceType : SourceType} {statements : List Token}
    {e : ScriptError} (h : resolveModule sourceType statements = .error e) :
    ∃ t ∈ statements, e.offset = t.span.start := by
  unfold resolveModule at h
  split at h
  · next t ts =>
    obtain rfl := Except.error.inj h
    exact ⟨t, List.mem_cons_self, rfl⟩
  · cases h
  · cases h

/-- The error of a script lies **between two of its characters**, or at an
end. -/
theorem isBoundary_of_analyze_error {options : AnalysisOptions} {script : Text} {e : ScriptError}
    (h : analyze options script = .error e) : script.IsBoundary e.offset := by
  have ofToken : (∃ t ∈ tokenize script, e.offset = t.span.start) →
      script.IsBoundary e.offset := by
    rintro ⟨t, ht, hoffset⟩
    rw [hoffset]
    exact (liesIn_of_mem_tokenize ht).isBoundary_start
  rw [analyze_eq] at h
  split at h
  · next htoken =>
    obtain rfl := Except.error.inj h
    exact ofToken (exists_token_of_tokenError? htoken)
  · split at h
    · next hbracket =>
      obtain rfl := Except.error.inj h
      rcases exists_token_of_bracketErrorFrom? hbracket with hstop | ⟨t, ht, hoffset⟩
      · rw [hstop]
        exact ⟨script, [], (List.append_nil script).symm, rfl⟩
      · exact ofToken ⟨t, mem_of_mem_significant ht, hoffset⟩
    · split at h
      · next hmodule =>
        obtain rfl := Except.error.inj h
        obtain ⟨t, ht, hoffset⟩ := exists_token_of_resolveModule hmodule
        exact ofToken ⟨t, mem_of_mem_moduleStatements ht, hoffset⟩
      · cases h

end FenceFacts
