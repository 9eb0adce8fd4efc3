import FenceFacts.Proofs.Tiling
import FenceFacts.Proofs.TopLevel

/-!
# FenceFacts — the order of declarations

A declaration is looked for from every top-level statement on, past the words
`export`, `default` and `async`.  A statement can also begin behind one of
these, if the line ends there, and then both searches end at the same name.
That is the only way to meet a name again: a search that begins at the name,
or behind it, finds only later ones.

## Results

* `declarationAt?_behind`         — a search that begins within a statement.
* `declarations_in_order`         — declarations stand in order, up to repetition.
* `declared_behind_lineEnd_twice` — one is repeated.
-/

namespace FenceFacts

open Lexicon

-- ---------------------------------------------------------------------------
-- Modifiers
-- ---------------------------------------------------------------------------

/-- The words that are passed over on the way to a declaration. -/
def modifiers : List String := ["export", "default", "async"]

def Token.IsModifier (t : Token) : Prop := ∃ word ∈ modifiers, t.reads word = true

instance (t : Token) : Decidable t.IsModifier :=
  inferInstanceAs (Decidable (∃ word ∈ modifiers, t.reads word = true))

theorem Token.eq_of_reads {t : Token} {word word' : String} (h : t.reads word = true)
    (h' : t.reads word' = true) : word = word' :=
  String.toList_inj.mp ((beq_iff_eq.mp h).symm.trans (beq_iff_eq.mp h'))

theorem DeclarationKind.ofToken?_eq_none {t : Token} {word : String} (h : t.reads word = true)
    (hword : ∀ kind : DeclarationKind, word ≠ kind.keyword) : ofToken? t = none :=
  List.find?_eq_none.mpr fun kind _ hkeyword => hword kind (Token.eq_of_reads h hkeyword)

namespace Token.IsModifier

variable {t : Token}

theorem ofToken?_eq_none (h : t.IsModifier) : DeclarationKind.ofToken? t = none := by
  obtain ⟨word, hword, hreads⟩ := h
  have hwords : ∀ word ∈ modifiers, ∀ kind ∈ DeclarationKind.all, word ≠ kind.keyword := by decide
  exact DeclarationKind.ofToken?_eq_none hreads fun kind =>
    hwords word hword kind (by cases kind <;> decide)

theorem edge?_eq_none {script : Text} (ht : t ∈ tokenize script) (h : t.IsModifier) :
    t.edge? = none := by
  obtain ⟨word, hword, hreads⟩ := h
  refine edge?_eq_none_of_text_mem ht (k := .ident) ?_ fun b => ⟨nofun, nofun⟩
  rw [beq_iff_eq.mp hreads]
  simp only [modifiers, List.mem_cons, List.not_mem_nil, or_false] at hword
  rcases hword with rfl | rfl | rfl
  all_goals simp [mem_textsOf, rules, isIdentStart, isIdentPart]

theorem not_reads (h : t.IsModifier) {word : String} (hword : word ∉ modifiers) :
    ¬ t.reads word = true := by
  intro hreads
  obtain ⟨modifier, hmodifier, hreads'⟩ := h
  rw [Token.eq_of_reads hreads' hreads] at hmodifier
  exact hword hmodifier

theorem endsNothing {script : Text} (ht : t ∈ tokenize script) (h : t.IsModifier) :
    ¬ t.reads ";" = true ∧ t.kind ≠ .closing .curly := by
  refine ⟨h.not_reads (by decide), fun hcurly => ?_⟩
  have hedge := h.edge?_eq_none ht
  rw [Token.edge?, hcurly] at hedge
  cases hedge

end Token.IsModifier

-- ---------------------------------------------------------------------------
-- Passing over modifiers
-- ---------------------------------------------------------------------------

/-- The second list is the first one without some modifiers in front. -/
def PassesOver (w w' : List Token) : Prop :=
  ∃ passed, w = passed ++ w' ∧ ∀ m ∈ passed, m.IsModifier

namespace PassesOver

variable {w w' w'' : List Token} {t : Token}

theorem refl (w : List Token) : PassesOver w w := ⟨[], rfl, nofun⟩

theorem trans (h : PassesOver w w') (h' : PassesOver w' w'') : PassesOver w w'' := by
  obtain ⟨passed, rfl, hpassed⟩ := h
  obtain ⟨passed', rfl, hpassed'⟩ := h'
  exact ⟨passed ++ passed', (List.append_assoc _ _ _).symm,
    List.forall_mem_append.mpr ⟨hpassed, hpassed'⟩⟩

theorem skipWord {word : String} (hword : word ∈ modifiers) (w : List Token) :
    PassesOver w (skipWord word w) := by
  cases w with
  | nil => exact refl []
  | cons t ts =>
    rw [FenceFacts.skipWord]
    split
    · next h => exact ⟨[t], rfl, List.forall_mem_singleton.mpr ⟨word, hword, h⟩⟩
    · exact refl _

theorem skipModifiers (w : List Token) : PassesOver w (skipModifiers w) := by
  have hexport : PassesOver w (FenceFacts.skipWord "export" w) := skipWord (by decide) w
  rw [FenceFacts.skipModifiers]
  refine PassesOver.trans ?_ (skipWord (by decide) _)
  split
  · exact hexport.trans (skipWord (by decide) _)
  · exact hexport

/-- What is no modifier is not passed over. -/
theorem exists_left (front : List Token) {back : List Token}
    (h : PassesOver (front ++ t :: back) w) (ht : ¬ t.IsModifier) :
    ∃ passed left, front = passed ++ left ∧ w = left ++ t :: back := by
  obtain ⟨passed, hsplit, hpassed⟩ := h
  rcases List.append_eq_append_iff.mp hsplit with ⟨more, rfl, hback⟩ | ⟨left, rfl, hw⟩
  · cases more with
    | nil => exact ⟨front, [], (List.append_nil front).symm, hback.symm⟩
    | cons m more =>
      obtain ⟨rfl, -⟩ := List.cons.inj hback
      exact absurd (hpassed t (List.mem_append_right front List.mem_cons_self)) ht
  · exact ⟨passed, left, rfl, hw⟩

end PassesOver

-- ---------------------------------------------------------------------------
-- One declaration
-- ---------------------------------------------------------------------------

section Search

variable {w w' : List Token} {d d' : Declaration}

theorem exists_skipWord (word : String) (ts : List Token) :
    ∃ skipped : List Token, (∀ s ∈ skipped, s.reads word = true) ∧
      ts = skipped ++ skipWord word ts := by
  cases ts with
  | nil => exact ⟨[], nofun, rfl⟩
  | cons t ts =>
    rw [skipWord]
    split
    · next h => exact ⟨[t], List.forall_mem_singleton.mpr h, rfl⟩
    · exact ⟨[], nofun, rfl⟩

/-- The keyword of a declaration, what is between it and the name, and what is
behind the name. -/
theorem exists_keyword_of_declarationAt? (h : declarationAt? w = some d) :
    ∃ keyword star name rest, skipModifiers w = keyword :: (star ++ name :: rest) ∧
      keyword.reads d.kind.keyword = true ∧ (∀ s ∈ star, s.reads "*" = true) ∧
      name.kind = .ident ∧ d.name = name.text ∧ d.span = name.span := by
  rw [declarationAt?] at h
  split at h
  · cases h
  · next keyword ts hskip =>
    obtain ⟨kind, hkind, h⟩ := Option.bind_eq_some_iff.mp h
    obtain ⟨name, hname, h⟩ := Option.bind_eq_some_iff.mp h
    obtain ⟨hident, hd⟩ := Option.ite_none_right_eq_some.mp h
    obtain rfl := Option.some.inj hd
    obtain ⟨star, hstar, hts⟩ : ∃ star : List Token, (∀ s ∈ star, s.reads "*" = true) ∧
        ts = star ++ if kind = .function then skipWord "*" ts else ts := by
      split
      · exact exists_skipWord "*" ts
      · exact ⟨[], nofun, rfl⟩
    have hkeyword : keyword.reads kind.keyword = true :=
      List.find?_some (p := fun kind : DeclarationKind => keyword.reads kind.keyword) hkind
    obtain ⟨rest, hrest⟩ := List.head?_eq_some_iff.mp hname
    rw [hrest] at hts
    exact ⟨keyword, star, name, rest, by rw [hskip, ← hts], hkeyword, hstar, hident, rfl, rfl⟩

theorem exists_name_of_declarationAt? (h : declarationAt? w = some d) :
    ∃ keyword star name rest, skipModifiers w = keyword :: (star ++ name :: rest) ∧
      ¬ keyword.IsModifier ∧ (∀ s ∈ star, s.reads "*" = true) ∧ d.span = name.span := by
  obtain ⟨keyword, star, name, rest, hskip, hkeyword, hstar, -, -, hspan⟩ :=
    exists_keyword_of_declarationAt? h
  refine ⟨keyword, star, name, rest, hskip, fun hmodifier => ?_, hstar, hspan⟩
  exact hmodifier.not_reads (by cases d.kind <;> decide) hkeyword

theorem declarationAt?_of_skipModifiers {t : Token} {ts : List Token}
    (hskip : skipModifiers w = t :: ts) (ht : DeclarationKind.ofToken? t = none) :
    declarationAt? w = none := by
  rw [declarationAt?, hskip]
  show (DeclarationKind.ofToken? t).bind _ = none
  rw [ht]
  rfl

/-- The search for a declaration depends on what is left when the modifiers
are passed over. -/
theorem declarationAt?_congr (h : skipModifiers w = skipModifiers w') :
    declarationAt? w = declarationAt? w' := by
  rw [declarationAt?, declarationAt?, h]

/-- From the star of a generator no declaration is found. -/
theorem declarationAt?_star {s : Token} (hs : s.reads "*" = true) :
    declarationAt? (s :: w) = none := by
  have hmodifier : ¬ s.IsModifier := fun h => h.not_reads (by decide) hs
  obtain ⟨passed, left, hfront, hskip⟩ :=
    (PassesOver.skipModifiers (s :: w)).exists_left [] hmodifier
  obtain ⟨-, rfl⟩ := List.append_eq_nil_iff.mp hfront.symm
  exact declarationAt?_of_skipModifiers hskip
    (DeclarationKind.ofToken?_eq_none hs fun kind => by cases kind <;> decide)

/-- A search that finds a declaration passes over all modifiers before it. -/
theorem skipModifiers_of_declarationAt? {front back : List Token} {keyword : Token}
    (hfront : ∀ m ∈ front, m.IsModifier) (hkeyword : ¬ keyword.IsModifier)
    (h : declarationAt? (front ++ keyword :: back) = some d) :
    skipModifiers (front ++ keyword :: back) = keyword :: back := by
  obtain ⟨passed, left, rfl, hskip⟩ :=
    (PassesOver.skipModifiers (front ++ keyword :: back)).exists_left front hkeyword
  cases left with
  | nil => exact hskip
  | cons m left =>
    have hm := hfront m (List.mem_append_right passed List.mem_cons_self)
    rw [declarationAt?_of_skipModifiers hskip hm.ofToken?_eq_none] at h
    cases h

/-- A declaration never has the name that its search begins at. -/
theorem exists_mem_tail_of_declarationAt? (h : declarationAt? w = some d) :
    ∃ t ∈ w.tail, d.span = t.span := by
  obtain ⟨keyword, star, name, rest, hskip, -, -, hspan⟩ := exists_name_of_declarationAt? h
  obtain ⟨passed, hw, -⟩ := PassesOver.skipModifiers w
  rw [hskip] at hw
  have hmem : name ∈ star ++ name :: rest := List.mem_append_right star List.mem_cons_self
  refine ⟨name, ?_, hspan⟩
  rw [hw]
  cases passed with
  | nil => exact hmem
  | cons m passed => exact List.mem_append_right passed (List.mem_cons_of_mem keyword hmem)

/-- A search that begins within a statement finds **the same declaration**,
with only modifiers before it, or **a later one**. -/
theorem declarationAt?_behind {front : List Token} (h : declarationAt? (front ++ w) = some d)
    (h' : declarationAt? w = some d') :
    (d' = d ∧ ∀ m ∈ front, m.IsModifier) ∨
      ∃ name t, [name, t].Sublist (front ++ w) ∧ d.span = name.span ∧ d'.span = t.span := by
  obtain ⟨keyword, star, name, rest, hskip, hkeyword, hstar, hspan⟩ :=
    exists_name_of_declarationAt? h
  obtain ⟨passed, hsplit, hpassed⟩ := PassesOver.skipModifiers (front ++ w)
  rw [hskip] at hsplit
  -- up to the keyword there are only modifiers, which lead on to it
  have hbefore (more : List Token) (hpassed' : passed = front ++ more)
      (hw : w = more ++ keyword :: (star ++ name :: rest)) :
      d' = d ∧ ∀ m ∈ front, m.IsModifier := by
    subst hpassed'
    obtain ⟨hfront, hmore⟩ := List.forall_mem_append.mp hpassed
    subst hw
    rw [declarationAt?_congr
      ((skipModifiers_of_declarationAt? hmore hkeyword h').trans hskip.symm), h] at h'
    exact ⟨(Option.some.inj h').symm, hfront⟩
  -- behind it, every name but the first is a later one
  obtain ⟨t, ht, hspan'⟩ := exists_mem_tail_of_declarationAt? h'
  have hbehind (ht : t ∈ rest) :
      ∃ name t, [name, t].Sublist (front ++ w) ∧ d.span = name.span ∧ d'.span = t.span := by
    refine ⟨name, t, ?_, hspan, hspan'⟩
    have hsublist : [name, t].Sublist (name :: rest) :=
      (List.singleton_sublist.mpr ht).cons_cons name
    rw [hsplit]
    exact ((hsublist.trans (List.sublist_append_right star _)).cons keyword).trans
      (List.sublist_append_right passed _)
  rcases List.append_eq_append_iff.mp hsplit with ⟨more, hpassed', hw⟩ | ⟨more, rfl, hmore⟩
  · exact Or.inl (hbefore more hpassed' hw)
  · cases more with
    | nil => exact Or.inl (hbefore [] (by simp only [List.append_nil]) hmore.symm)
    | cons _ more =>
      obtain ⟨-, hmore⟩ := List.cons.inj hmore
      refine Or.inr (hbehind ?_)
      rcases List.append_eq_append_iff.mp hmore with ⟨between, rfl, hname⟩ | ⟨star', rfl, rfl⟩
      · cases between with
        | nil =>
          rw [List.nil_append] at hname
          rwa [← hname] at ht
        | cons _ between =>
          obtain ⟨-, rfl⟩ := List.cons.inj hname
          exact List.mem_append_right between (List.mem_of_mem_tail ht)
      · cases star' with
        | nil => exact ht
        | cons s star' =>
          rw [List.cons_append, declarationAt?_star
            (hstar s (List.mem_append_right more List.mem_cons_self))] at h'
          cases h'

end Search

-- ---------------------------------------------------------------------------
-- All declarations
-- ---------------------------------------------------------------------------

/-- No line ends between a modifier and what it stands before. -/
def ModifiersOnLine (tokens : List Token) : Prop :=
  ∀ before m gap u after, tokens = before ++ m :: (gap ++ u :: after) → m.IsModifier →
    significant gap = [] → u.kind ≠ .newline

/-- Where modifiers are on the line of what they stand before, no statement
begins right behind one. -/
theorem not_isStart_behind_modifiers {script : Text} {before between after : List Token}
    {t u : Token} (hsplit : tokenize script = before ++ t :: (between ++ u :: after))
    (ht : t.isSignificant = true) (hline : ModifiersOnLine (tokenize script))
    (hmodifiers : ∀ m ∈ significant (t :: between), m.IsModifier) :
    ¬ (StatementSearch.behind (before ++ t :: between)).isStart u = true := by
  intro hstart
  have hmem : ∀ v ∈ before ++ t :: between, v ∈ tokenize script := fun v hv => by
    rw [hsplit, ← List.cons_append, ← List.append_assoc]
    exact List.mem_append_left _ hv
  have hnone : ∀ m ∈ significant (t :: between), ¬ m.reads ";" = true ∧ m.kind ≠ .closing .curly :=
    fun m hm => (hmodifiers m hm).endsNothing
      (hmem m (List.mem_append_right before (mem_of_mem_significant hm)))
  obtain ⟨earlier, last, gap, hlast, hsig, hgap, v, hv, hnewline⟩ :=
    exists_newline_of_canBegin ht hnone (StatementSearch.canBegin_of_isStart hmem hstart)
  -- the last significant token before the statement is a modifier
  have hmodifier : last.IsModifier := by
    refine hmodifiers last ?_
    rw [hlast, significant_append, significant_cons_of_pos hsig]
    exact List.mem_append_right _ List.mem_cons_self
  obtain ⟨gap, gap', rfl⟩ := List.append_of_mem hv
  rw [significant_append, List.append_eq_nil_iff] at hgap
  refine hline (before ++ earlier) last gap v (gap' ++ u :: after) ?_ hmodifier hgap.1 hnewline
  rw [hsplit, ← List.cons_append, hlast]
  simp only [List.append_assoc, List.cons_append]

/-- Any two declarations are in order, or the search for the second began
behind a modifier of the first. -/
theorem pairwise_declarations {script : Text} {R : Declaration → Declaration → Prop}
    (hlater : ∀ d d', d.span.stop ≤ d'.span.start → R d d')
    (hsame : ∀ before t between u after,
      tokenize script = before ++ t :: (between ++ u :: after) → t.isSignificant = true →
      (∀ m ∈ significant (t :: between), m.IsModifier) →
      (StatementSearch.behind (before ++ t :: between)).isStart u = true → ∀ d, R d d) :
    (declarations (tokenize script)).Pairwise R := by
  rw [declarations_eq, List.pairwise_filterMap]
  refine StatementSearch.pairwise_statementsFrom
    fun before t between u after hsplit ht hu d hd d' hd' => ?_
  have ht : t.isSignificant = true := (Bool.and_eq_true_iff.mp ht).1
  have hstatement : significant (t :: (between ++ u :: after)) =
      significant (t :: between) ++ significant (u :: after) := by
    rw [← List.cons_append, significant_append]
  have hsublist : (significant (t :: (between ++ u :: after))).Sublist (tokenize script) := by
    rw [hsplit]
    exact List.filter_sublist.trans (List.sublist_append_right before _)
  rw [hstatement] at hd hsublist
  rcases declarationAt?_behind hd hd' with ⟨rfl, hmodifiers⟩ | ⟨name, v, hnames, hspan, hspan'⟩
  · exact hsame before t between u after hsplit ht hmodifiers hu d'
  · refine hlater d d' ?_
    rw [hspan, hspan']
    exact List.pairwise_iff_forall_sublist.mp (pairwise_tokenize script) (hnames.trans hsublist)

/-- Declarations stand **in order**, each behind the ones before it or once
more the same.  None is repeated where modifiers are on the line of what they
stand before. -/
theorem declarations_in_order (options : AnalysisOptions) (script : Text) (a : Analysis)
    (h : analyze options script = .ok a) :
    (∀ d ∈ a.declarations, d.span.start < d.span.stop) ∧
    a.declarations.Pairwise (fun d d' => d' = d ∨ d.span.stop ≤ d'.span.start) ∧
    (ModifiersOnLine a.tokens →
      a.declarations.Pairwise fun d d' => d.span.stop ≤ d'.span.start) := by
  obtain ⟨htokens, hdeclarations, -⟩ := eq_of_analyze_ok h
  rw [htokens, hdeclarations]
  refine ⟨fun d hd => ?_, ?_, fun hline => ?_⟩
  · obtain ⟨t, ht, -, -, hspan⟩ := exists_token_of_mem_declarations hd
    rw [hspan]
    exact (liesIn_of_mem_tokenize ht).start_lt_stop
  · exact pairwise_declarations (fun _ _ => Or.inr) fun _ _ _ _ _ _ _ _ _ _ => Or.inl rfl
  · refine pairwise_declarations (fun _ _ => id) ?_
    intro before t between u after hsplit ht hmodifiers hstart
    exact absurd hstart (not_isStart_behind_modifiers hsplit ht hline hmodifiers)

/-- An exported name and another one, on one line. -/
def twoNames : Text :=
  ['e', 'x', 'p', 'o', 'r', 't', ' ', 'l', 'e', 't', ' ', 'a', ';', 'l', 'e', 't', ' ', 'b']

/-- Each is declared once. -/
theorem declarations_in_order_twoNames :
    ModifiersOnLine (tokenize twoNames) ∧ ∃ a, analyze {} twoNames = .ok a ∧
      a.declarations = [⟨.let, ['a'], 11, 12⟩, ⟨.let, ['b'], 17, 18⟩] ∧
      a.declarations.Pairwise fun d d' => d.span.stop ≤ d'.span.start := by
  have hline : ModifiersOnLine (tokenize twoNames) := by
    intro before m gap u after hsplit _ _
    have hnone : ∀ v ∈ tokenize twoNames, v.kind ≠ .newline := by decide +kernel
    rw [hsplit] at hnone
    exact hnone u (List.mem_append_right before (List.mem_cons_of_mem m
      (List.mem_append_right gap List.mem_cons_self)))
  have haccepted : (analyze {} twoNames).toOption.isSome = true := by decide +kernel
  cases h : analyze {} twoNames with
  | error e =>
    rw [h] at haccepted
    cases haccepted
  | ok a =>
    obtain ⟨htokens, hdeclarations, -⟩ := eq_of_analyze_ok h
    refine ⟨hline, a, rfl, ?_, (declarations_in_order {} twoNames a h).2.2 (htokens ▸ hline)⟩
    rw [hdeclarations]
    decide +kernel

/-- A declaration with a line end behind its modifier. -/
def exportAcrossLines : Text :=
  ['e', 'x', 'p', 'o', 'r', 't', '\n', 'l', 'e', 't', ' ', 'y']

/-- A line end behind a modifier makes its declaration be found **twice**. -/
theorem declared_behind_lineEnd_twice :
    ¬ ∀ (options : AnalysisOptions) (script : Text) (a : Analysis),
      analyze options script = .ok a →
        a.declarations.Pairwise fun d d' => d.span.start < d'.span.start := by
  intro honce
  have hdeclarations : declarations (tokenize exportAcrossLines) =
      [⟨.let, ['y'], 11, 12⟩, ⟨.let, ['y'], 11, 12⟩] := by decide +kernel
  have haccepted : (analyze {} exportAcrossLines).toOption.isSome = true := by decide +kernel
  cases h : analyze {} exportAcrossLines with
  | error e =>
    rw [h] at haccepted
    cases haccepted
  | ok a =>
    have hincreasing := honce {} exportAcrossLines a h
    rw [(eq_of_analyze_ok h).2.1, hdeclarations] at hincreasing
    exact absurd hincreasing (by decide)

end FenceFacts
