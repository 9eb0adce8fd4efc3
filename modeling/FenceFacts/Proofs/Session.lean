import FenceFacts.Proofs.Extraction
import FenceFacts.Proofs.Labels
import FenceFacts.Proofs.References

/-!
# FenceFacts — sessions

A session is any number of steps on one sink: Markdown documents and script
files are extracted, and labels are taken for other ends.  A step can fail, and
the session goes on from the sink that it has left.  What a step adds to the
store is its contribution: the facts of its document, only the first of them
when the store stops taking facts on the way, or none.

The contributions lie one behind the other, also by the labels in use: all
labels of a document, those of its facts and those of its variables, come
after all labels before the document.  So references never leave a document,
and neither does a variable.

## Results

* `exists_covers_step`        — one step.
* `sessionFacts_contributions` — a session.
* `references_hold`           — labels, references and variables.
-/

namespace FenceFacts

-- ---------------------------------------------------------------------------
-- Stores with contents
-- ---------------------------------------------------------------------------

/-- The contents of a store: what it takes is behind what it has, and what it
refuses leaves them alone. -/
structure FactStore.Keeps {σ : Type} [FactStore σ] (contents : σ → List Fact) : Prop where
  write_ok : ∀ f s s', write f s = .ok () s' → contents s' = contents s ++ [f]
  write_error : ∀ f e s s', write f s = .error e s' → contents s' = contents s

theorem FactStore.keeps_factList : Keeps FactList.facts where
  write_ok f s s' h := by
    injection h with _ h
    rw [← h]
  write_error f e s s' h := by cases h

/-- Of a list of facts a store takes all or the first ones. -/
theorem FactStore.Keeps.writeAll {σ : Type} [FactStore σ] {contents : σ → List Fact}
    (h : Keeps contents) (facts : List Fact) (s : σ) :
    ∃ taken, taken <+: facts ∧
      contents (stateAfter (writeAll facts s)) = contents s ++ taken := by
  induction facts generalizing s with
  | nil => exact ⟨[], List.prefix_refl [], (List.append_nil _).symm⟩
  | cons f facts ih =>
    rw [writeAll_cons]
    cases hwrite : write f s with
    | error e s' => exact ⟨[], List.nil_prefix, by
        rw [List.append_nil]
        exact h.write_error f e s s' hwrite⟩
    | ok u s' =>
      obtain ⟨taken, htaken, hcontents⟩ := ih s'
      refine ⟨f :: taken, List.cons_prefix_cons.mpr ⟨rfl, htaken⟩, hcontents.trans ?_⟩
      rw [h.write_ok f s s' hwrite, List.append_assoc]
      rfl

-- ---------------------------------------------------------------------------
-- Steps
-- ---------------------------------------------------------------------------

inductive SessionStep
  | markdown (options : ExtractionOptions) (d : Document)
  | script (options : ExtractionOptions) (d : Document)
  | label
  deriving DecidableEq, Repr

section Session

variable {σ : Type} [FactStore σ]

/-- The sink after a step, however it ends. -/
def SessionStep.run : SessionStep → Sink σ → Sink σ
  | markdown options d, s => stateAfter (extractMarkdown options d s)
  | script options d, s => stateAfter (extractScriptFile options d s)
  | label, s => stateAfter (Sink.fresh (ε := WriteError) s)

def runSession (steps : List SessionStep) (s : Sink σ) : Sink σ :=
  steps.foldl (fun s step => step.run s) s

/-- What each step adds to the contents of the store. -/
def contributions (contents : σ → List Fact) : List SessionStep → Sink σ → List (List Fact)
  | [], _ => []
  | step :: steps, s =>
    (contents (step.run s).store).drop (contents s.store).length ::
      contributions contents steps (step.run s)

variable {contents : σ → List Fact}

/-- A document adds facts of its harvest, or none. -/
theorem Harvest.Follows.exists_covers {g : Harvest} {path : Text} {kind : TopLevelKind}
    {work : EStateM ExtractionFailure (Sink (Draft σ)) LineTotals} (h : g.Follows work path kind)
    (hclimbs : Climbs Sink.lastLabel (Sink.transaction .write work))
    (hkeeps : FactStore.Keeps contents) (s : Sink σ) :
    ∃ (l : Ledger) (facts : List Fact), l.Covers s.lastLabel facts ∧
      l.lastLabel = (stateAfter (Sink.transaction .write work s)).lastLabel ∧
      contents (stateAfter (Sink.transaction .write work s)).store = contents s.store ++ facts := by
  have hclimbs := hclimbs s
  cases hresult : g.result with
  | ok totals =>
    obtain ⟨notes, hrun⟩ := h.delivers hresult s
    obtain ⟨taken, htaken, hcontents⟩ :=
      hkeeps.writeAll (g.facts path kind s.lastLabel) s.store
    refine ⟨_, taken, (g.covers_facts path kind s.lastLabel).restrict htaken, ?_⟩
    rw [hrun]
    -- all facts are taken, or only the first ones
    cases hwrite : FactStore.writeAll (g.facts path kind s.lastLabel) s.store <;>
      rw [hwrite] at hcontents <;> exact ⟨rfl, hcontents⟩
  | error e =>
    obtain ⟨last, notes, hrun⟩ := h.exists_refuses hresult s
    rw [hrun] at hclimbs ⊢
    exact ⟨_, [], Ledger.Covers.nil hclimbs, rfl, (List.append_nil _).symm⟩

/-- What **one step** adds, with a ledger behind it. -/
theorem exists_covers_step (hkeeps : FactStore.Keeps contents) (step : SessionStep) (s : Sink σ) :
    ∃ (l : Ledger) (facts : List Fact), l.Covers s.lastLabel facts ∧
      l.lastLabel = (step.run s).lastLabel ∧
      contents (step.run s).store = contents s.store ++ facts := by
  cases step with
  | markdown options d =>
    exact (markdown_follows options d).exists_covers (climbs_extractMarkdown options d) hkeeps s
  | script options d =>
    exact (scriptFile_follows options d).exists_covers (climbs_extractScriptFile options d) hkeeps s
  | label =>
    exact ⟨⟨{}, s.lastLabel + 1⟩, [], Ledger.Covers.nil (Nat.le_succ _), rfl,
      (List.append_nil _).symm⟩

end Session

-- ---------------------------------------------------------------------------
-- Contributions
-- ---------------------------------------------------------------------------

/-- The contributions of a session, each with a ledger behind it that the next
one starts from. -/
inductive SessionFacts : Nat → List (List Fact) → Prop
  | nil (base : Nat) : SessionFacts base []
  | cons {base : Nat} {facts : List Fact} {rest : List (List Fact)} {l : Ledger} :
    l.Covers base facts → SessionFacts l.lastLabel rest → SessionFacts base (facts :: rest)

/-- **A session** adds the contributions of its steps, one after the other. -/
theorem sessionFacts_contributions {σ : Type} [FactStore σ] {contents : σ → List Fact}
    (hkeeps : FactStore.Keeps contents) (steps : List SessionStep) (s : Sink σ) :
    contents (runSession steps s).store =
        contents s.store ++ (contributions contents steps s).flatten ∧
      SessionFacts s.lastLabel (contributions contents steps s) := by
  induction steps generalizing s with
  | nil => exact ⟨(List.append_nil _).symm, .nil _⟩
  | cons step steps ih =>
    obtain ⟨l, facts, hcovers, hlast, hcontents⟩ := exists_covers_step hkeeps step s
    obtain ⟨hrest, hsession⟩ := ih (step.run s)
    have hfacts : (contents (step.run s).store).drop (contents s.store).length = facts := by
      rw [hcontents, List.drop_left]
    rw [contributions, hfacts]
    refine ⟨?_, .cons hcovers (hlast ▸ hsession)⟩
    rw [List.flatten_cons, ← List.append_assoc, ← hcontents]
    exact hrest

/-- The label is the fact's own or that of the variable it declares. -/
def Fact.Gives (f : Fact) (label : Label) : Prop :=
  label = f.label ∨ ∃ name, f.declared? = some (label, name)

theorem Ledger.Covers.gives_mem {l : Ledger} {base : Nat} {facts : List Fact}
    (h : l.Covers base facts) {f : Fact} (hf : f ∈ facts) {label : Label} (hlabel : f.Gives label) :
    base < label.number ∧ label.number ≤ l.lastLabel := by
  rcases hlabel with rfl | ⟨name, hname⟩
  · exact h.label_mem f hf
  · exact h.binding_mem name label (h.declared f hf label name hname)

namespace SessionFacts

variable {base : Nat} {groups : List (List Fact)}

/-- Every label of a session comes after those before the session. -/
theorem lt_of_gives (h : SessionFacts base groups) {f : Fact} (hf : f ∈ groups.flatten)
    {label : Label} (hlabel : f.Gives label) : base < label.number := by
  induction h with
  | nil => exact absurd hf List.not_mem_nil
  | cons hcovers _ ih =>
    rcases List.mem_append.mp hf with hf | hf
    · exact (hcovers.gives_mem hf hlabel).1
    · exact Nat.lt_of_le_of_lt hcovers.base_le (ih hf)

/-- Labels of a step come before those of the steps after it. -/
theorem lt_of_later {l : Ledger} {facts : List Fact} (hcovers : l.Covers base facts)
    (h : SessionFacts l.lastLabel groups) {f g : Fact} (hf : f ∈ facts) (hg : g ∈ groups.flatten)
    {label label' : Label} (hlabel : f.Gives label) (hlabel' : g.Gives label') :
    label.number < label'.number :=
  Nat.lt_of_le_of_lt (hcovers.gives_mem hf hlabel).2 (h.lt_of_gives hg hlabel')

theorem ne_of_later {l : Ledger} {facts : List Fact} (hcovers : l.Covers base facts)
    (h : SessionFacts l.lastLabel groups) {f g : Fact} (hf : f ∈ facts) (hg : g ∈ groups.flatten)
    {label label' : Label} (hlabel : f.Gives label) (hlabel' : g.Gives label') :
    label ≠ label' := by
  rintro rfl
  exact Nat.lt_irrefl _ (lt_of_later hcovers h hf hg hlabel hlabel')

theorem increasing (h : SessionFacts base groups) :
    groups.flatten.Pairwise fun f g => f.label.number < g.label.number := by
  induction h with
  | nil => exact List.Pairwise.nil
  | cons hcovers hrest ih =>
    rw [List.flatten_cons, List.pairwise_append]
    exact ⟨hcovers.increasing, ih, fun f hf g hg =>
      lt_of_later hcovers hrest hf hg (Or.inl rfl) (Or.inl rfl)⟩

theorem refersBack (h : SessionFacts base groups) {facts : List Fact} (hfacts : facts ∈ groups) :
    ∀ before f after, facts = before ++ f :: after → f.RefersBack before := by
  induction h with
  | nil => exact absurd hfacts List.not_mem_nil
  | cons hcovers _ ih =>
    rcases List.mem_cons.mp hfacts with rfl | hfacts
    · exact hcovers.refersBack
    · exact ih hfacts

theorem binding_ne (h : SessionFacts base groups) {f g : Fact} (hf : f ∈ groups.flatten)
    (hg : g ∈ groups.flatten) {binding : Label} {name : Text}
    (hname : f.declared? = some (binding, name)) : binding ≠ g.label := by
  induction h with
  | nil => exact absurd hf List.not_mem_nil
  | cons hcovers hrest ih =>
    rcases List.mem_append.mp hf with hf | hf
    · rcases List.mem_append.mp hg with hg | hg
      · exact hcovers.binding_ne name binding (hcovers.declared f hf binding name hname) g hg
      · exact ne_of_later hcovers hrest hf hg (Or.inr ⟨name, hname⟩) (Or.inl rfl)
    · rcases List.mem_append.mp hg with hg | hg
      · exact (ne_of_later hcovers hrest hg hf (Or.inl rfl) (Or.inr ⟨name, hname⟩)).symm
      · exact ih hf hg

theorem binding_eq_iff (h : SessionFacts base groups) {i j : Nat} {facts facts' : List Fact}
    (hi : groups[i]? = some facts) (hj : groups[j]? = some facts') {f g : Fact} (hf : f ∈ facts)
    (hg : g ∈ facts') {binding binding' : Label} {name name' : Text}
    (hname : f.declared? = some (binding, name)) (hname' : g.declared? = some (binding', name')) :
    binding = binding' ↔ i = j ∧ name = name' := by
  have hgives : f.Gives binding := Or.inr ⟨name, hname⟩
  have hgives' : g.Gives binding' := Or.inr ⟨name', hname'⟩
  induction h generalizing i j with
  | nil => simp at hi
  | cons hcovers hrest ih =>
    cases i with
    | zero =>
      obtain rfl := Option.some.inj hi
      cases j with
      | zero =>
        obtain rfl := Option.some.inj hj
        have hlookup := hcovers.declared f hf binding name hname
        have hlookup' := hcovers.declared g hg binding' name' hname'
        constructor
        · rintro rfl
          exact ⟨rfl, hcovers.injective name name' binding hlookup hlookup'⟩
        · rintro ⟨-, rfl⟩
          exact Option.some.inj (hlookup.symm.trans hlookup')
      | succ j =>
        rw [List.getElem?_cons_succ] at hj
        have hmem := List.mem_flatten_of_mem (List.mem_of_getElem? hj) hg
        have hne := ne_of_later hcovers hrest hf hmem hgives hgives'
        exact ⟨fun heq => absurd heq hne, fun h => absurd h.1 (Nat.succ_ne_zero j).symm⟩
    | succ i =>
      cases j with
      | zero =>
        obtain rfl := Option.some.inj hj
        rw [List.getElem?_cons_succ] at hi
        have hmem := List.mem_flatten_of_mem (List.mem_of_getElem? hi) hf
        have hne := ne_of_later hcovers hrest hg hmem hgives' hgives
        exact ⟨fun heq => absurd heq.symm hne, fun h => absurd h.1 (Nat.succ_ne_zero i)⟩
      | succ j =>
        rw [List.getElem?_cons_succ] at hi hj
        exact (ih hi hj).trans (and_congr_left' Nat.succ_inj.symm)

end SessionFacts

-- ---------------------------------------------------------------------------
-- References
-- ---------------------------------------------------------------------------

/-- Whatever the steps of a session, the facts that it adds have **increasing
labels** and **refer back** within their documents, and a **variable** is a
name in a document: it shares its label with no fact and no other variable. -/
theorem references_hold {σ : Type} [FactStore σ] {contents : σ → List Fact}
    (hkeeps : FactStore.Keeps contents) (steps : List SessionStep) (s : Sink σ) :
    contents (runSession steps s).store =
      contents s.store ++ (contributions contents steps s).flatten ∧
    (contributions contents steps s).flatten.Pairwise
      (fun f g => f.label.number < g.label.number) ∧
    (∀ facts ∈ contributions contents steps s, ∀ before f after,
      facts = before ++ f :: after → f.RefersBack before) ∧
    (∀ f ∈ (contributions contents steps s).flatten,
      ∀ g ∈ (contributions contents steps s).flatten,
      ∀ binding name, f.declared? = some (binding, name) → binding ≠ g.label) ∧
    ∀ (i j : Nat) (facts facts' : List Fact),
      (contributions contents steps s)[i]? = some facts →
      (contributions contents steps s)[j]? = some facts' →
      ∀ f ∈ facts, ∀ g ∈ facts', ∀ binding name binding' name',
      f.declared? = some (binding, name) → g.declared? = some (binding', name') →
      (binding = binding' ↔ i = j ∧ name = name') := by
  obtain ⟨hcontents, hsession⟩ := sessionFacts_contributions hkeeps steps s
  refine ⟨hcontents, hsession.increasing, fun facts hfacts => hsession.refersBack hfacts,
    fun f hf g hg binding name hname => hsession.binding_ne hf hg hname, ?_⟩
  intro i j facts facts' hi hj f hf g hg binding name binding' name' hname hname'
  exact hsession.binding_eq_iff hi hj hf hg hname hname'

/-- Two blocks that declare one name, a document that is rejected, a label for
other ends and a script file that declares the name again. -/
def redeclaring : List SessionStep :=
  let declares : Text := ['l', 'e', 't', ' ', 'x', '\n']
  let fence : Text := ['\x60', '\x60', '\x60']
  let block := fence ++ ['j', 's', '\n'] ++ declares ++ fence ++ ['\n']
  [.markdown {} ⟨⟨['t', 'w', 'o']⟩, block ++ block⟩, .script {} ⟨⟨['b', 'a', 'd']⟩, ['(']⟩, .label,
    .script {} ⟨⟨['o', 'n', 'e']⟩, declares⟩]

/-- The variable of the two blocks has label 4, that of the script file 14. -/
theorem references_hold_redeclared :
    FactStore.Keeps FactList.facts ∧
    (contributions FactList.facts redeclaring { store := {} }).map (·.filterMap Fact.declared?) =
      [[(⟨4⟩, ['x']), (⟨4⟩, ['x'])], [], [], [(⟨14⟩, ['x'])]] ∧
    (runSession redeclaring { store := ({} : FactList) }).store.facts =
      (contributions FactList.facts redeclaring { store := {} }).flatten ∧
    (∀ facts ∈ contributions FactList.facts redeclaring { store := {} }, ∀ before f after,
      facts = before ++ f :: after → f.RefersBack before) := by
  obtain ⟨hcontents, -, hrefers, -⟩ :=
    references_hold FactStore.keeps_factList redeclaring { store := {} }
  exact ⟨FactStore.keeps_factList, by decide +kernel, hcontents, hrefers⟩

end FenceFacts
