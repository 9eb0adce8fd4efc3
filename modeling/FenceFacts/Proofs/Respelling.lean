import FenceFacts.Proofs.LineBreaks

/-!
# FenceFacts — scripts that are spelled otherwise

Two scripts can have the same tokens, one by one, although they are spelled
otherwise and stand elsewhere.  What is read off the tokens then comes out the
same: which of them begin statements, what these declare, and what is wrong
with the script.  Only words and kinds of tokens matter for that, so all that
is asked of a respelling is that it changes no word.

## Results

* `opensRegexAfter_respelled` — what a `/` means behind a token.
* `declarations_map`, `moduleStatements_map` — what statements say.
* `analyze_respelled`         — the analysis of the other script.
-/

namespace FenceFacts

/-- How texts of tokens are spelled and where offsets go.  Words, which no
line feed is part of, are spelled in one way. -/
structure Respelling where
  text : Text → Text
  offset : Nat → Nat
  text_eq_iff : ∀ {t word : Text}, '\n' ∉ word → (text t = word ↔ t = word)

namespace Respelling

variable (r : Respelling)

def span (s : Span) : Span := ⟨r.offset s.start, r.offset s.stop⟩

def token (t : Token) : Token := ⟨t.kind, r.text t.text, r.span t.span⟩

def declaration (d : Declaration) : Declaration := ⟨d.kind, r.text d.name, r.span d.span⟩

def error (e : ScriptError) : ScriptError := ⟨e.cause, r.offset e.offset⟩

/-- The analysis of the other script, whose lines count as they do here. -/
def analysis (a : Analysis) : Analysis where
  tokens := a.tokens.map r.token
  declarations := a.declarations.map r.declaration
  isModule := a.isModule
  lines := a.lines

-- ---------------------------------------------------------------------------
-- Words
-- ---------------------------------------------------------------------------

@[simp] theorem kind_token (t : Token) : (r.token t).kind = t.kind := rfl

@[simp] theorem isSignificant_token (t : Token) : (r.token t).isSignificant = t.isSignificant := rfl

theorem text_of_not_mem {word : Text} (h : '\n' ∉ word) : r.text word = word :=
  (r.text_eq_iff h).mpr rfl

theorem text_beq {word : Text} (h : '\n' ∉ word) (t : Text) : (r.text t == word) = (t == word) := by
  rw [Bool.eq_iff_iff, beq_iff_eq, beq_iff_eq]
  exact r.text_eq_iff h

theorem reads_token {word : String} (h : '\n' ∉ word.toList) (t : Token) :
    (r.token t).reads word = t.reads word :=
  r.text_beq h t.text

/-- What a `/` means behind a token is told by words. -/
theorem opensRegexAfter_respelled (kind : TokenKind) (text : Text) (previous : Option Token) :
    opensRegexAfter kind (r.text text) (previous.map r.token) =
      opensRegexAfter kind text previous := by
  cases kind with
  | punct =>
    have hplus : r.text text = ['+'] ↔ text = ['+'] := r.text_eq_iff (by decide)
    have hminus : r.text text = ['-'] ↔ text = ['-'] := r.text_eq_iff (by decide)
    simp only [opensRegexAfter, hplus, hminus]
    split
    · next hsign =>
      have htext : '\n' ∉ text := by
        simp only [Bool.or_eq_true, decide_eq_true_eq] at hsign
        rcases hsign with rfl | rfl <;> decide
      rw [r.text_of_not_mem htext]
      cases previous with
      | none => rfl
      | some p =>
        rw [Option.map_some, Option.any_some, Option.any_some, token, r.text_beq htext]
    · rfl
  | ident =>
    have hkeywords : ∀ word ∈ operandKeywords, '\n' ∉ word.toList := by decide
    rw [opensRegexAfter, opensRegexAfter, Bool.eq_iff_iff, List.any_eq_true, List.any_eq_true]
    refine exists_congr fun word => and_congr_right fun hword => ?_
    rw [beq_iff_eq, beq_iff_eq, eq_comm, r.text_eq_iff (hkeywords word hword), eq_comm]
  | closing b => cases b <;> rfl
  | _ => rfl

-- ---------------------------------------------------------------------------
-- Statements
-- ---------------------------------------------------------------------------

theorem significant_map (tokens : List Token) :
    significant (tokens.map r.token) = (significant tokens).map r.token := by
  rw [significant, List.filter_map]
  rfl

theorem statementStartsFrom_map (depth index : Nat) (pending : Bool) (tokens : List Token) :
    statementStartsFrom depth index pending (tokens.map r.token) =
      statementStartsFrom depth index pending tokens := by
  induction tokens generalizing depth index pending with
  | nil => rfl
  | cons t ts ih =>
    have hsemicolon : (r.token t).reads ";" = t.reads ";" := r.reads_token (by decide) t
    simp only [List.map_cons, statementStartsFrom, kind_token, isSignificant_token, ih, hsemicolon]

theorem isModuleStatement_map (tokens : List Token) :
    isModuleStatement (tokens.map r.token) = isModuleStatement tokens := by
  cases tokens with
  | nil => rfl
  | cons t next =>
    have himport : (r.token t).reads "import" = t.reads "import" := r.reads_token (by decide) t
    have hexport : (r.token t).reads "export" = t.reads "export" := r.reads_token (by decide) t
    have hpoint (n : Token) : (r.token n).reads "." = n.reads "." := r.reads_token (by decide) n
    rw [List.map_cons, isModuleStatement, isModuleStatement, kind_token, himport, hexport,
      List.head?_map, Option.any_map]
    simp only [kind_token, hpoint]

theorem moduleStatements_map (tokens : List Token) :
    moduleStatements (tokens.map r.token) = (moduleStatements tokens).map r.token := by
  simp only [moduleStatements, statementStarts, statementStartsFrom_map, significant_map,
    ← List.map_drop, isModuleStatement_map, List.getElem?_map, List.map_filterMap]
  congr 1
  funext i
  split <;> rfl

theorem skipWord_map (word : String) (h : '\n' ∉ word.toList) (tokens : List Token) :
    skipWord word (tokens.map r.token) = (skipWord word tokens).map r.token := by
  cases tokens with
  | nil => rfl
  | cons t ts =>
    rw [List.map_cons, skipWord, skipWord, r.reads_token h]
    split <;> rfl

theorem skipModifiers_map (tokens : List Token) :
    skipModifiers (tokens.map r.token) = (skipModifiers tokens).map r.token := by
  have hexport := r.skipWord_map "export" (by decide)
  have hdefault := r.skipWord_map "default" (by decide)
  have hasync := r.skipWord_map "async" (by decide)
  simp only [skipModifiers, hexport, hdefault, List.length_map, ← hasync]
  congr 1
  split <;> rfl

theorem ofToken?_token (t : Token) :
    DeclarationKind.ofToken? (r.token t) = DeclarationKind.ofToken? t := by
  have hkeyword (kind : DeclarationKind) :
      (r.token t).reads kind.keyword = t.reads kind.keyword :=
    r.reads_token (by cases kind <;> decide) t
  simp only [DeclarationKind.ofToken?, hkeyword]

theorem declarationAt?_map (tokens : List Token) :
    declarationAt? (tokens.map r.token) = (declarationAt? tokens).map r.declaration := by
  unfold declarationAt?
  rw [skipModifiers_map]
  cases skipModifiers tokens with
  | nil => rfl
  | cons t ts =>
    have hname (kind : DeclarationKind) :
        (if kind = .function then skipWord "*" (ts.map r.token) else ts.map r.token).head? =
          (if kind = .function then skipWord "*" ts else ts).head?.map r.token := by
      rw [r.skipWord_map "*" (by decide), ← List.head?_map]
      split <;> rfl
    simp only [List.map_cons, ofToken?_token, hname]
    cases DeclarationKind.ofToken? t with
    | none => rfl
    | some kind =>
      cases hhead : (if kind = .function then skipWord "*" ts else ts).head? with
      | none => simp [hhead]
      | some name =>
        simp only [Option.bind_eq_bind, Option.bind_some, hhead, Option.map_some, kind_token,
          apply_ite (Option.map r.declaration)]
        rfl

theorem declarations_map (tokens : List Token) :
    declarations (tokens.map r.token) = (declarations tokens).map r.declaration := by
  simp only [declarations, statementStarts, statementStartsFrom_map, significant_map,
    ← List.map_drop, declarationAt?_map, List.map_filterMap]

-- ---------------------------------------------------------------------------
-- Errors
-- ---------------------------------------------------------------------------

variable {r} {tokens : List Token}

theorem offence?_token {t : Token} (h : t.kind = .unknown → '\n' ∉ t.text) (ecmaVersion : Nat) :
    (r.token t).offence? ecmaVersion = t.offence? ecmaVersion := by
  unfold Token.offence?
  rw [kind_token]
  split <;> try rfl
  next hkind => rw [token, r.text_of_not_mem (h hkind)]

theorem tokenError?_map (h : ∀ t ∈ tokens, t.kind = .unknown → '\n' ∉ t.text)
    (ecmaVersion : Nat) :
    tokenError? ecmaVersion (tokens.map r.token) =
      (tokenError? ecmaVersion tokens).map r.error := by
  induction tokens with
  | nil => rfl
  | cons t ts ih =>
    have ht := offence?_token (r := r) (h t List.mem_cons_self) ecmaVersion
    have hts := ih fun t' ht' => h t' (List.mem_cons_of_mem t ht')
    unfold tokenError? at hts ⊢
    rw [List.map_cons, List.findSome?_cons, List.findSome?_cons, ht, hts]
    cases t.offence? ecmaVersion <;> rfl

variable (r)

theorem bracketErrorFrom?_map (stop : Nat) (unclosed : List Bracket) (tokens : List Token) :
    bracketErrorFrom? (r.offset stop) unclosed (tokens.map r.token) =
      (bracketErrorFrom? stop unclosed tokens).map r.error := by
  induction tokens generalizing unclosed with
  | nil => cases unclosed <;> rfl
  | cons t ts ih =>
    unfold bracketErrorFrom?
    simp only [List.map_cons, kind_token]
    split
    · exact ih _
    · rfl
    · split
      · exact ih _
      · rfl
    · exact ih _

theorem resolveModule_map (sourceType : SourceType) (statements : List Token) :
    resolveModule sourceType (statements.map r.token) =
      (resolveModule sourceType statements).mapError r.error := by
  cases sourceType <;> cases statements <;> rfl

-- ---------------------------------------------------------------------------
-- Analysis
-- ---------------------------------------------------------------------------

theorem touchedLines_map {index index' : LineIndex} {tokens : List Token}
    (hcount : index'.lineCount = index.lineCount)
    (hrange : ∀ t ∈ tokens, (r.token t).lineRange index' = t.lineRange index) :
    touchedLines index' (tokens.map r.token) = touchedLines index tokens := by
  have hranges : (tokens.map r.token).map (·.lineRange index') =
      tokens.map (·.lineRange index) := by
    rw [List.map_map]
    exact List.map_congr_left hrange
  rw [touchedLines, touchedLines, hranges, hcount]

/-- With the same tokens, spelled otherwise, and the same counts of lines, a
script has **the same analysis**: it is accepted or rejected as the other is. -/
theorem analyze_respelled {script script' : Text}
    (htokens : tokenize script' = (tokenize script).map r.token)
    (hstop : script'.byteLength = r.offset script.byteLength)
    (hlines : ∀ options a, analyze options script = .ok a →
      countLines (.ofText script') ((tokenize script).map r.token) =
        countLines (.ofText script) (tokenize script))
    (options : AnalysisOptions) :
    analyze options script' = ((analyze options script).map r.analysis).mapError r.error := by
  have hunknown : ∀ t ∈ tokenize script, t.kind = .unknown → '\n' ∉ t.text := by
    intro t ht hkind hmem
    have hspans := spansLines_of_mem ht hmem
    rw [hkind] at hspans
    cases hspans
  have hlines := hlines options
  rw [analyze_eq] at hlines ⊢
  rw [analyze_eq, htokens, tokenError?_map hunknown, hstop, significant_map, bracketError?,
    bracketErrorFrom?_map, ← bracketError?, moduleStatements_map, resolveModule_map,
    declarations_map]
  cases htoken : tokenError? options.ecmaVersion (tokenize script) with
  | some e => rfl
  | none =>
    cases hbracket : bracketError? script.byteLength (significant (tokenize script)) with
    | some e => rfl
    | none =>
      cases hmodule : resolveModule options.sourceType (moduleStatements (tokenize script)) with
      | error e => rfl
      | ok isModule =>
        rw [htoken, hbracket, hmodule] at hlines
        have hcount := hlines _ rfl
        simp only [Option.map_none, Except.mapError, hcount]
        rfl

end Respelling

end FenceFacts
