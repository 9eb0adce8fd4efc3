import FenceFacts.Proofs.Headings

/-!
# FenceFacts — functions and classes that are assigned

A function or a class that stands behind an `=` is an expression, also if it
has a name, and its name is not bound at the top level.  On one line the
search for statements gets past it: behind `=` no statement begins, and behind
a modifier none does either.

A line end makes a difference, as each line begins a statement.  With one
between the `=` and the keyword the expression is recorded as a declaration;
a comment that goes on over several lines is no line end.

## Results

* `exists_newline_of_isStart`           — where a statement begins behind an `=`.
* `Declaration.IsAssigned.exists_start` — where a search behind an `=` began.
* `assigned_behind_lineEnd_only`        — what is recorded behind an `=`.
* `assigned_on_next_line`               — an expression that is recorded.
-/

namespace FenceFacts

-- ---------------------------------------------------------------------------
-- One list split in two ways
-- ---------------------------------------------------------------------------

section Splits

variable {front front' back back' : List Token} {t t' : Token}

/-- Tokens in order have one place for each span. -/
theorem append_cons_inj_of_span {tokens : List Token}
    (horder : tokens.Pairwise fun t u => t.span.stop ≤ u.span.start)
    (hforwards : t.span.start < t.span.stop) (hsplit : tokens = front ++ t :: back)
    (hsplit' : tokens = front' ++ t' :: back') (hspan : t'.span = t.span) :
    front = front' ∧ t = t' ∧ back = back' := by
  rw [hsplit] at horder
  obtain ⟨-, hback, hfront⟩ := List.pairwise_append.mp horder
  refine (List.append_cons_inj_of_notMem (fun hmem => ?_) fun hmem => ?_).mp
    (hsplit.symm.trans hsplit')
  · have hbefore := hfront t' hmem t List.mem_cons_self
    rw [hspan] at hbefore
    omega
  · have hbehind := (List.pairwise_cons.mp hback).1 t' hmem
    rw [hspan] at hbehind
    omega

/-- Of two ends of a list, the one without `t` is an end of what is behind
`t`. -/
theorem exists_of_append_eq_append_cons {p : Token → Prop}
    (h : front ++ back = front' ++ t :: back') (hback : ∀ u ∈ back, p u) (ht : ¬ p t) :
    ∃ between, front = front' ++ t :: between ∧ back' = between ++ back := by
  rcases List.append_eq_append_iff.mp h with ⟨more, rfl, rfl⟩ | ⟨more, rfl, hmore⟩
  · exact absurd (hback t (List.mem_append_right more List.mem_cons_self)) ht
  · cases more with
    | nil =>
      rw [List.nil_append] at hmore
      exact absurd (hback t (hmore ▸ List.mem_cons_self)) ht
    | cons u more =>
      obtain ⟨rfl, rfl⟩ := List.cons.inj hmore
      exact ⟨more, rfl, rfl⟩

/-- The last token that is not of a sort has one place. -/
theorem append_cons_inj_of_forall {p : Token → Prop}
    (h : front ++ t :: back = front' ++ t' :: back') (ht : ¬ p t) (hback : ∀ u ∈ back, p u)
    (ht' : ¬ p t') (hback' : ∀ u ∈ back', p u) :
    front = front' ∧ t = t' := by
  have hends : (front ++ [t]) ++ back = front' ++ t' :: back' := by
    rw [List.append_assoc, List.singleton_append, h]
  obtain ⟨between, hfront, rfl⟩ := exists_of_append_eq_append_cons hends hback ht'
  rcases List.eq_nil_or_concat' between with rfl | ⟨between, u, rfl⟩
  · obtain ⟨rfl, hlast⟩ := List.append_inj' hfront rfl
    exact ⟨rfl, List.singleton_inj.mp hlast⟩
  · rw [← List.cons_append, ← List.append_assoc] at hfront
    obtain ⟨-, hlast⟩ := List.append_inj' hfront rfl
    obtain rfl := List.singleton_inj.mp hlast
    exact absurd (hback' t (List.mem_append_left back (List.mem_append_right between
      List.mem_cons_self))) ht

end Splits

-- ---------------------------------------------------------------------------
-- Where statements begin
-- ---------------------------------------------------------------------------

/-- A statement that begins behind an `=` and modifiers begins **on another
line**. -/
theorem exists_newline_of_isStart {script : Text} {earlier front after : List Token}
    {equals t : Token} (hsplit : tokenize script = (earlier ++ equals :: front) ++ t :: after)
    (hpunct : equals.kind = .punct) (hequals : equals.reads "=" = true)
    (hmodifiers : ∀ m ∈ significant front, m.IsModifier)
    (hstart : (StatementSearch.behind (earlier ++ equals :: front)).isStart t = true) :
    ∃ u ∈ front, u.kind = .newline := by
  have hmem : ∀ u ∈ earlier ++ equals :: front, u ∈ tokenize script := fun u hu => by
    rw [hsplit]
    exact List.mem_append_left _ hu
  have hsignificant : equals.isSignificant = true := by
    rw [Token.isSignificant, hpunct]
    rfl
  have hnone : ∀ u ∈ significant (equals :: front),
      ¬ u.reads ";" = true ∧ u.kind ≠ .closing .curly := by
    rw [significant_cons_of_pos hsignificant, List.forall_mem_cons]
    refine ⟨⟨fun hreads => absurd (Token.eq_of_reads hequals hreads) (by decide), ?_⟩, ?_⟩
    · rw [hpunct]
      exact TokenKind.noConfusion
    · exact fun m hm => (hmodifiers m hm).endsNothing (hmem m (List.mem_append_right earlier
        (List.mem_cons_of_mem equals (mem_of_mem_significant hm))))
  obtain ⟨passed, last, gap, hgap, -, -, u, hu, hnewline⟩ :=
    exists_newline_of_canBegin hsignificant hnone (StatementSearch.canBegin_of_isStart hmem hstart)
  have hu : u ∈ equals :: front := by
    rw [hgap]
    exact List.mem_append_right passed (List.mem_cons_of_mem last hu)
  rcases List.mem_cons.mp hu with rfl | hu
  · exact absurd hnewline (ne_newline_of_isSignificant hsignificant)
  · exact ⟨u, hu, hnewline⟩

/-- The search for a declaration **began at a statement** and passed over
modifiers to a keyword. -/
theorem exists_head_of_mem_declarations {tokens : List Token} {d : Declaration}
    (h : d ∈ declarations tokens) :
    ∃ before t after passed keyword star name rest, tokens = before ++ t :: after ∧
      (StatementSearch.behind before).isStart t = true ∧
      significant (t :: after) = passed ++ keyword :: (star ++ name :: rest) ∧
      (∀ m ∈ passed, m.IsModifier) ∧ ¬ keyword.reads "*" = true ∧
      (∀ s ∈ star, s.reads "*" = true) ∧ d.span = name.span := by
  rw [declarations_eq] at h
  obtain ⟨w, hw, hd⟩ := List.mem_filterMap.mp h
  obtain ⟨before, t, after, htokens, hstart, rfl⟩ := StatementSearch.mem_statementsFrom_iff.mp hw
  obtain ⟨keyword, star, name, rest, hskip, -, hstar, hspan⟩ := exists_name_of_declarationAt? hd
  obtain ⟨passed, hsplit, hpassed⟩ := PassesOver.skipModifiers (significant (t :: after))
  have hkeyword : ¬ keyword.reads "*" = true := fun hreads => by
    have hnone := declarationAt?_of_skipModifiers hskip
      (DeclarationKind.ofToken?_eq_none hreads fun kind => by cases kind <;> decide)
    rw [hd] at hnone
    cases hnone
  rw [hskip] at hsplit
  exact ⟨before, t, after, passed, keyword, star, name, rest, htokens, hstart, hsplit, hpassed,
    hkeyword, hstar, hspan⟩

-- ---------------------------------------------------------------------------
-- Behind an assignment
-- ---------------------------------------------------------------------------

/-- What the declaration records stands behind an `=`: there are modifiers
next, if any, among the tokens `lead`, then its keyword and its name. -/
def Declaration.IsAssigned (tokens lead : List Token) (d : Declaration) : Prop :=
  ∃ earlier equals keyword gap name after,
    tokens = earlier ++ equals :: (lead ++ keyword :: (gap ++ name :: after)) ∧
    equals.kind = .punct ∧ equals.reads "=" = true ∧
    (∀ m ∈ significant lead, m.IsModifier) ∧
    keyword.kind = .ident ∧ keyword.reads d.kind.keyword = true ∧
    (∀ s ∈ significant gap, s.reads "*" = true) ∧
    name.kind = .ident ∧ name.span = d.span

/-- A statement and an assignment that lead to the same name: the statement
begins at the `=`, or behind it and only modifiers. -/
theorem exists_of_same_name {tokens before passed star rest earlier lead gap after : List Token}
    {keyword keyword' equals name name' : Token}
    (horder : tokens.Pairwise fun t u => t.span.stop ≤ u.span.start)
    (hforwards : name.span.start < name.span.stop) (hspan : name'.span = name.span)
    (hstatement : tokens = before ++ (passed ++ keyword' :: (star ++ name' :: rest)))
    (hassignment : tokens = earlier ++ equals :: (lead ++ keyword :: (gap ++ name :: after)))
    (hpassed : ∀ m ∈ passed, m.IsModifier) (hequals : ¬ equals.IsModifier)
    (hstar : ∀ s ∈ star, s.reads "*" = true) (hkeyword' : ¬ keyword'.reads "*" = true)
    (hgap : ∀ s ∈ gap, s.reads "*" = true) (hkeyword : ¬ keyword.reads "*" = true) :
    ∃ more, before = earlier ++ equals :: more ∧ lead = more ++ passed := by
  -- back from the name to the keyword, and from there to the `=`
  have hname : tokens = ((earlier ++ equals :: lead) ++ keyword :: gap) ++ name :: after := by
    simp only [hassignment, List.append_assoc, List.cons_append]
  have hname' : tokens = ((before ++ passed) ++ keyword' :: star) ++ name' :: rest := by
    simp only [hstatement, List.append_assoc, List.cons_append]
  obtain ⟨hkeywords, -, -⟩ := append_cons_inj_of_span horder hforwards hname hname' hspan
  obtain ⟨hpassedOver, -⟩ := append_cons_inj_of_forall hkeywords hkeyword hgap hkeyword' hstar
  exact exists_of_append_eq_append_cons hpassedOver.symm hpassed hequals

/-- What is significant before a place tells whether `t` is before it, and how
far. -/
theorem exists_front_of_significant {tokens before earlier more back back' : List Token} {t : Token}
    (horder : tokens.Pairwise fun t u => t.span.stop ≤ u.span.start)
    (hforwards : t.span.start < t.span.stop) (ht : t.isSignificant = true)
    (hsplit : tokens = earlier ++ t :: back) (hsplit' : tokens = before ++ back')
    (hbefore : significant before = significant earlier ++ t :: more) :
    ∃ front, before = earlier ++ t :: front ∧ back = front ++ back' ∧ significant front = more := by
  have hmem : t ∈ before := by
    refine mem_of_mem_significant ?_
    rw [hbefore]
    exact List.mem_append_right _ List.mem_cons_self
  obtain ⟨earlier', front, rfl⟩ := List.append_of_mem hmem
  rw [List.append_assoc, List.cons_append] at hsplit'
  obtain ⟨rfl, -, rfl⟩ := append_cons_inj_of_span horder hforwards hsplit hsplit' rfl
  rw [significant_append, significant_cons_of_pos ht] at hbefore
  exact ⟨front, rfl, rfl, (List.cons.inj (List.append_cancel_left hbefore)).2⟩

/-- What is recorded behind an `=` was found by a search that **began among**
the modifiers, or at the keyword. -/
theorem Declaration.IsAssigned.exists_start {script : Text} {d : Declaration} {lead : List Token}
    (h : d.IsAssigned (tokenize script) lead) (hd : d ∈ declarations (tokenize script)) :
    ∃ earlier equals front t after, tokenize script = (earlier ++ equals :: front) ++ t :: after ∧
      equals.kind = .punct ∧ equals.reads "=" = true ∧
      (∀ m ∈ significant front, m.IsModifier) ∧ (∀ u ∈ front, u ∈ lead) ∧
      (StatementSearch.behind (earlier ++ equals :: front)).isStart t = true := by
  obtain ⟨earlier, equals, keyword, gap, name, after, hsplit, hpunct, hequals, hlead, hident,
    hkeyword, hgap, hname, hspan⟩ := h
  obtain ⟨before, t, after', passed, keyword', star, name', rest, hsplit', hstart, hhead, hpassed,
    hkeyword', hstar, hspan'⟩ := exists_head_of_mem_declarations hd
  have horder := pairwise_tokenize script
  have hforwards {t : Token} (ht : t ∈ tokenize script) : t.span.start < t.span.stop :=
    (liesIn_of_mem_tokenize ht).start_lt_stop
  have hequalsMem : equals ∈ tokenize script := by
    simp only [hsplit, List.mem_append, List.mem_cons, true_or, or_true]
  have hnameMem : name ∈ tokenize script := by
    simp only [hsplit, List.mem_append, List.mem_cons, true_or, or_true]
  have hsignificant : equals.isSignificant = true ∧ keyword.isSignificant = true ∧
      name.isSignificant = true := by
    simp only [Token.isSignificant, hpunct, hident, hname]
    decide
  obtain ⟨hequalsSig, hkeywordSig, hnameSig⟩ := hsignificant
  have hequalsOther : ¬ equals.IsModifier := fun hmodifier =>
    hmodifier.not_reads (by decide) hequals
  have hkeywordOther : ¬ keyword.reads "*" = true := fun hstar =>
    absurd (Token.eq_of_reads hkeyword hstar) (by cases d.kind <;> decide)
  have hstatement : significant (tokenize script) =
      significant before ++ (passed ++ keyword' :: (star ++ name' :: rest)) := by
    rw [hsplit', significant_append, hhead]
  have hassignment : significant (tokenize script) = significant earlier ++ equals ::
      (significant lead ++ keyword :: (significant gap ++ name :: significant after)) := by
    rw [hsplit, significant_append, significant_cons_of_pos hequalsSig, significant_append,
      significant_cons_of_pos hkeywordSig, significant_append, significant_cons_of_pos hnameSig]
  obtain ⟨more, hbefore, hmore⟩ := exists_of_same_name (horder.sublist List.filter_sublist)
    (hforwards hnameMem) (hspan'.symm.trans hspan.symm) hstatement hassignment hpassed
    hequalsOther hstar hkeyword' hgap hkeywordOther
  obtain ⟨front, rfl, hbehind, rfl⟩ := exists_front_of_significant horder (hforwards hequalsMem)
    hequalsSig hsplit hsplit' hbefore
  have hmodifiers : ∀ m ∈ significant front, m.IsModifier := fun m hm =>
    hlead m (hmore ▸ List.mem_append_left passed hm)
  refine ⟨earlier, equals, front, t, after', hsplit', hpunct, hequals, hmodifiers, fun u hu => ?_,
    hstart⟩
  -- the keyword is no modifier, so it is not before the statement
  rcases List.append_eq_append_iff.mp hbehind with ⟨between, rfl, hkeyword'⟩ | ⟨between, rfl, -⟩
  · cases between with
    | nil => rwa [List.append_nil] at hu
    | cons v between =>
      obtain ⟨rfl, -⟩ := List.cons.inj hkeyword'
      refine absurd (hmodifiers keyword ?_) (not_isModifier_of_keyword hkeyword)
      rw [significant_append, significant_cons_of_pos hkeywordSig]
      exact List.mem_append_right _ List.mem_cons_self
  · exact List.mem_append_left between hu

/-- Behind an `=` a declaration is recorded **only if a line ends** before its
keyword. -/
theorem assigned_behind_lineEnd_only (options : AnalysisOptions) (script : Text) (a : Analysis)
    (h : analyze options script = .ok a) (d : Declaration) (hd : d ∈ a.declarations)
    (lead : List Token) (hassigned : d.IsAssigned a.tokens lead) :
    ∃ u ∈ lead, u.kind = .newline := by
  obtain ⟨htokens, hdeclarations, -⟩ := eq_of_analyze_ok h
  rw [htokens] at hassigned
  rw [hdeclarations] at hd
  obtain ⟨earlier, equals, front, t, after, hsplit, hpunct, hequals, hmodifiers, hfront, hstart⟩ :=
    hassigned.exists_start hd
  obtain ⟨u, hu, hnewline⟩ := exists_newline_of_isStart hsplit hpunct hequals hmodifiers hstart
  exact ⟨u, hfront u hu, hnewline⟩

/-- An assignment with a comment and a line end in it. -/
def assignedAsync : Text := "x = /* g */\nasync function f() \x7b\x7d".toList

/-- The line end is what makes its function be recorded. -/
theorem assigned_behind_lineEnd_only_assignedAsync :
    ∃ a, analyze {} assignedAsync = .ok a ∧ ⟨.function, ['f'], 27, 28⟩ ∈ a.declarations ∧
      ∃ lead, Declaration.IsAssigned a.tokens lead ⟨.function, ['f'], 27, 28⟩ ∧
        ∃ u ∈ lead, u.kind = .newline := by
  have hdeclared : ⟨.function, ['f'], 27, 28⟩ ∈ declarations (tokenize assignedAsync) := by
    decide +kernel
  have hassigned : Declaration.IsAssigned (tokenize assignedAsync)
      ((tokenize assignedAsync).drop 3 |>.take 5) ⟨.function, ['f'], 27, 28⟩ := by
    refine ⟨(tokenize assignedAsync).take 2, ⟨.punct, ['='], 2, 3⟩,
      ⟨.ident, "function".toList, 18, 26⟩, [⟨.whitespace, [' '], 26, 27⟩],
      ⟨.ident, ['f'], 27, 28⟩, (tokenize assignedAsync).drop 11,
      ?_, rfl, rfl, ?_, rfl, rfl, nofun, rfl, rfl⟩
    · decide +kernel
    · decide +kernel
  obtain ⟨a, h, htokens, hdeclarations⟩ := exists_analysis_of_accepted
    (show (analyze {} assignedAsync).toOption.isSome = true by decide +kernel)
  rw [← htokens] at hassigned
  rw [← hdeclarations] at hdeclared
  exact ⟨a, h, hdeclared, _, hassigned,
    assigned_behind_lineEnd_only {} assignedAsync a h _ hdeclared _ hassigned⟩

/-- An assignment that goes on in the next line. -/
def assignedNextLine : Text := "x =\nfunction f() \x7b\x7d".toList

/-- With a line end behind the `=`, an expression **is recorded**. -/
theorem assigned_on_next_line :
    ¬ ∀ (options : AnalysisOptions) (script : Text) (a : Analysis),
      analyze options script = .ok a → ∀ d ∈ a.declarations,
        (d.kind = .function ∨ d.kind = .classDef) →
          ∀ lead, ¬ Declaration.IsAssigned a.tokens lead d := by
  intro hnone
  have hdeclared : ⟨.function, ['f'], 13, 14⟩ ∈ declarations (tokenize assignedNextLine) := by
    decide +kernel
  have hassigned : Declaration.IsAssigned (tokenize assignedNextLine)
      [⟨.newline, ['\n'], 3, 4⟩] ⟨.function, ['f'], 13, 14⟩ := by
    refine ⟨(tokenize assignedNextLine).take 2, ⟨.punct, ['='], 2, 3⟩,
      ⟨.ident, "function".toList, 4, 12⟩, [⟨.whitespace, [' '], 12, 13⟩],
      ⟨.ident, ['f'], 13, 14⟩, (tokenize assignedNextLine).drop 7,
      ?_, rfl, rfl, nofun, rfl, rfl, nofun, rfl, rfl⟩
    decide +kernel
  obtain ⟨a, h, htokens, hdeclarations⟩ := exists_analysis_of_accepted
    (show (analyze {} assignedNextLine).toOption.isSome = true by decide +kernel)
  rw [← htokens] at hassigned
  rw [← hdeclarations] at hdeclared
  exact hnone {} assignedNextLine a h _ hdeclared (Or.inl rfl) _ hassigned

end FenceFacts
