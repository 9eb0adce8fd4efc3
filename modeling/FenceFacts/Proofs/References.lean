import FenceFacts.Proofs.Harvest

/-!
# FenceFacts — references between facts

The facts of a document refer to each other by label.  What a fact refers to
stands before it: a top level names the file, and everything else the last top
level so far.  A declaration names its variable, whose label is that of no
fact.

All of this is kept by one invariant on the facts so far and the ledger behind
them (`Ledger.Covers`).  The last label lies above every label in use, so the
next one is new, to facts and variables alike; and the scope gives every name
that has been declared the label of its variable, and no two names the same.

## Results

* `Ledger.Covers.emit`, `Ledger.Covers.declare` — what one step keeps.
* `Ledger.Covers.recordAll`                     — what the findings of a script keep.
* `Harvest.covers_facts`                        — the facts of a document.
-/

namespace FenceFacts

-- ---------------------------------------------------------------------------
-- What facts refer to
-- ---------------------------------------------------------------------------

namespace Fact

def topLevelLabel? : Fact → Option Label
  | topLevel l _ _ _ _ => some l
  | _ => none

/-- The label of the variable and its name. -/
def declared? : Fact → Option (Label × Text)
  | declaration _ _ binding name _ _ => some (binding, name)
  | _ => none

end Fact

/-- The label of the last top level among the facts. -/
def lastTopLevel? (facts : List Fact) : Option Label :=
  (facts.filterMap Fact.topLevelLabel?).getLast?

/-- What the fact refers to is among the facts before it. -/
def Fact.RefersBack (before : List Fact) : Fact → Prop
  | file _ _ => True
  | topLevel _ of _ _ _ => ∃ path, file of path ∈ before
  | line _ of _ _ _ | comment _ of _ _ | declaration _ of _ _ _ _ => lastTopLevel? before = some of

theorem lastTopLevel?_append_of_none {f : Fact} (h : f.topLevelLabel? = none) (facts : List Fact) :
    lastTopLevel? (facts ++ [f]) = lastTopLevel? facts := by
  rw [lastTopLevel?, List.filterMap_append, List.filterMap_cons_none h, List.filterMap_nil,
    List.append_nil, lastTopLevel?]

theorem lastTopLevel?_append_of_some {f : Fact} {l : Label} (h : f.topLevelLabel? = some l)
    (facts : List Fact) : lastTopLevel? (facts ++ [f]) = some l := by
  rw [lastTopLevel?, List.filterMap_append, List.filterMap_cons_some h, List.filterMap_nil,
    List.getLast?_concat]

-- ---------------------------------------------------------------------------
-- The facts so far and the ledger behind them
-- ---------------------------------------------------------------------------

/-- The facts of a document so far and the ledger behind them.  Labels up to
`base` were in use before the document. -/
structure Ledger.Covers (l : Ledger) (base : Nat) (facts : List Fact) : Prop where
  base_le : base ≤ l.lastLabel
  increasing : facts.Pairwise fun f g => f.label.number < g.label.number
  label_mem : ∀ f ∈ facts, base < f.label.number ∧ f.label.number ≤ l.lastLabel
  refersBack : ∀ before f after, facts = before ++ f :: after → f.RefersBack before
  declared : ∀ f ∈ facts, ∀ binding name, f.declared? = some (binding, name) →
    l.scope.lookup name = some binding
  binding_mem : ∀ name binding, l.scope.lookup name = some binding →
    base < binding.number ∧ binding.number ≤ l.lastLabel
  binding_ne : ∀ name binding, l.scope.lookup name = some binding →
    ∀ f ∈ facts, binding ≠ f.label
  injective : ∀ name name' binding, l.scope.lookup name = some binding →
    l.scope.lookup name' = some binding → name = name'

theorem Scope.lookup_bind (s : Scope) (name name' : Text) (label : Label) :
    (s.bind name label).lookup name' = if name' = name then some label else s.lookup name' := by
  rw [lookup, bind, List.lookup_cons]
  by_cases h : name' = name
  · rw [if_pos h, h, beq_self_eq_true]
  · rw [if_neg h, beq_false_of_ne h]
    rfl

theorem Scope.of_lookup_bind {s : Scope} {name name' : Text} {label binding : Label}
    (h : (s.bind name label).lookup name' = some binding) :
    (name' = name ∧ binding = label) ∨ (name' ≠ name ∧ s.lookup name' = some binding) := by
  rw [lookup_bind] at h
  split at h
  · next heq => exact Or.inl ⟨heq, (Option.some.inj h).symm⟩
  · next hne => exact Or.inr ⟨hne, h⟩

/-- A label in use is not the next one. -/
theorem Ledger.ne_next {l : Ledger} {label : Label} (h : label.number ≤ l.lastLabel) :
    label ≠ l.next := by
  rintro rfl
  exact Nat.not_succ_le_self _ h

namespace Ledger.Covers

variable {l : Ledger} {base : Nat} {facts : List Fact}

/-- Before there are facts or variables. -/
theorem nil {last : Nat} (h : base ≤ last) : (⟨{}, last⟩ : Ledger).Covers base [] where
  base_le := h
  increasing := List.Pairwise.nil
  label_mem f hf := absurd hf List.not_mem_nil
  refersBack before f after h := by simp at h
  declared f hf := absurd hf List.not_mem_nil
  binding_mem name binding h := by cases h
  binding_ne name binding h := by cases h
  injective name name' binding h := by cases h

theorem restrict (h : l.Covers base facts) {facts' : List Fact} (hfacts : facts' <+: facts) :
    l.Covers base facts' where
  base_le := h.base_le
  increasing := h.increasing.sublist hfacts.sublist
  label_mem f hf := h.label_mem f (hfacts.subset hf)
  refersBack before f after heq := by
    obtain ⟨rest, rfl⟩ := hfacts
    refine h.refersBack before f (after ++ rest) ?_
    rw [heq, List.append_assoc, List.cons_append]
  declared f hf := h.declared f (hfacts.subset hf)
  binding_mem := h.binding_mem
  binding_ne name binding hlookup f hf := h.binding_ne name binding hlookup f (hfacts.subset hf)
  injective := h.injective

/-- One more fact, with **the next label**. -/
theorem emit (h : l.Covers base facts) {f : Fact} (hlabel : f.label = l.next)
    (hrefers : f.RefersBack facts) (hdeclared : ∀ binding name,
      f.declared? = some (binding, name) → l.scope.lookup name = some binding) :
    l.spend.Covers base (facts ++ [f]) where
  base_le := Nat.le_succ_of_le h.base_le
  increasing := by
    rw [List.pairwise_append]
    refine ⟨h.increasing, List.pairwise_singleton _ _, fun g hg f' hf' => ?_⟩
    obtain rfl := List.mem_singleton.mp hf'
    rw [hlabel]
    exact Nat.lt_succ_of_le (h.label_mem g hg).2
  label_mem g hg := by
    rcases List.mem_append.mp hg with hg | hg
    · have hmem := h.label_mem g hg
      exact ⟨hmem.1, Nat.le_succ_of_le hmem.2⟩
    · obtain rfl := List.mem_singleton.mp hg
      rw [hlabel]
      exact ⟨Nat.lt_succ_of_le h.base_le, Nat.le_refl _⟩
  refersBack before g after heq := by
    rcases List.eq_nil_or_concat after with rfl | ⟨after, last, rfl⟩
    · -- the new fact itself
      obtain ⟨rfl, hg⟩ := List.append_inj' heq rfl
      obtain rfl := List.singleton_inj.mp hg
      exact hrefers
    · rw [List.concat_eq_append, ← List.cons_append, ← List.append_assoc] at heq
      obtain ⟨hfacts, -⟩ := List.append_inj' heq rfl
      exact h.refersBack before g after hfacts
  declared g hg := by
    rcases List.mem_append.mp hg with hg | hg
    · exact h.declared g hg
    · obtain rfl := List.mem_singleton.mp hg
      exact hdeclared
  binding_mem name binding hlookup := by
    have hmem := h.binding_mem name binding hlookup
    exact ⟨hmem.1, Nat.le_succ_of_le hmem.2⟩
  binding_ne name binding hlookup g hg := by
    rcases List.mem_append.mp hg with hg | hg
    · exact h.binding_ne name binding hlookup g hg
    · obtain rfl := List.mem_singleton.mp hg
      rw [hlabel]
      exact ne_next (h.binding_mem name binding hlookup).2
  injective := h.injective

/-- A new variable, with **the next label**. -/
theorem bind (h : l.Covers base facts) {name : Text} (hname : l.scope.lookup name = none) :
    ({ l.spend with scope := l.scope.bind name l.next } : Ledger).Covers base facts where
  base_le := Nat.le_succ_of_le h.base_le
  increasing := h.increasing
  label_mem f hf := by
    have hmem := h.label_mem f hf
    exact ⟨hmem.1, Nat.le_succ_of_le hmem.2⟩
  refersBack := h.refersBack
  declared f hf binding name' hdeclared := by
    have hlookup := h.declared f hf binding name' hdeclared
    have hne : name' ≠ name := by
      rintro rfl
      rw [hname] at hlookup
      cases hlookup
    rw [Scope.lookup_bind, if_neg hne, hlookup]
  binding_mem name' binding hlookup := by
    rcases Scope.of_lookup_bind hlookup with ⟨rfl, rfl⟩ | ⟨-, hlookup⟩
    · exact ⟨Nat.lt_succ_of_le h.base_le, Nat.le_refl _⟩
    · have hmem := h.binding_mem name' binding hlookup
      exact ⟨hmem.1, Nat.le_succ_of_le hmem.2⟩
  binding_ne name' binding hlookup f hf := by
    rcases Scope.of_lookup_bind hlookup with ⟨rfl, rfl⟩ | ⟨-, hlookup⟩
    · exact (ne_next (h.label_mem f hf).2).symm
    · exact h.binding_ne name' binding hlookup f hf
  injective name' name'' binding hlookup hlookup' := by
    -- a variable from before does not have the next label
    rcases Scope.of_lookup_bind hlookup with ⟨rfl, rfl⟩ | ⟨-, hlookup⟩
    · rcases Scope.of_lookup_bind hlookup' with ⟨rfl, -⟩ | ⟨-, hlookup'⟩
      · rfl
      · exact absurd rfl (ne_next (h.binding_mem name'' _ hlookup').2)
    · rcases Scope.of_lookup_bind hlookup' with ⟨-, rfl⟩ | ⟨-, hlookup'⟩
      · exact absurd rfl (ne_next (h.binding_mem name' _ hlookup).2)
      · exact h.injective name' name'' binding hlookup hlookup'

theorem declare (h : l.Covers base facts) (name : Text) :
    (l.declare name).Covers base facts ∧
      (l.declare name).scope.lookup name = some (l.binding name) := by
  unfold Ledger.declare Ledger.binding
  cases hname : l.scope.lookup name with
  | some binding => exact ⟨h, hname⟩
  | none => exact ⟨h.bind hname, by rw [Scope.lookup_bind, if_pos rfl]; rfl⟩

-- ---------------------------------------------------------------------------
-- Recorded findings
-- ---------------------------------------------------------------------------

variable {topLevel : Label}

/-- A finding below the last top level. -/
theorem record (h : l.Covers base facts) (htop : lastTopLevel? facts = some topLevel)
    (f : Finding) :
    (l.record f).Covers base (facts ++ [l.factOf topLevel f]) ∧
      lastTopLevel? (facts ++ [l.factOf topLevel f]) = some topLevel := by
  obtain ⟨item, location⟩ := f
  constructor
  · cases item with
    | line text terminator => exact h.emit rfl htop fun binding name hd => by cases hd
    | comment text => exact h.emit rfl htop fun binding name hd => by cases hd
    | declaration name kind =>
      obtain ⟨hcovers, hlookup⟩ := h.declare name
      refine hcovers.emit rfl htop fun binding name' hd => ?_
      cases hd
      exact hlookup
  · rw [lastTopLevel?_append_of_none (by cases item <;> rfl), htop]

/-- The findings of a script, **one after the other**. -/
theorem recordAll (h : l.Covers base facts) (htop : lastTopLevel? facts = some topLevel)
    (fs : List Finding) :
    (l.recordAll fs).Covers base (facts ++ l.factsOf topLevel fs) := by
  induction fs generalizing l facts with
  | nil =>
    rw [factsOf, List.append_nil]
    exact h
  | cons f fs ih =>
    obtain ⟨hcovers, htop'⟩ := h.record htop f
    rw [factsOf, List.append_cons]
    exact ih hcovers htop'

variable {file : Label} {path : Text}

/-- A script of a file that has its fact. -/
theorem recordReading (h : l.Covers base facts) (hfile : .file file path ∈ facts)
    (kind : TopLevelKind) (r : Reading) :
    (l.recordReading r).Covers base (facts ++ l.readingFacts file kind r) := by
  have hcovers := h.emit (f := .topLevel l.next file kind r.isModule r.body) rfl ⟨path, hfile⟩
    fun binding name hd => by cases hd
  rw [readingFacts, List.append_cons]
  exact hcovers.recordAll (lastTopLevel?_append_of_some rfl facts) r.members

theorem recordReadings (h : l.Covers base facts) (hfile : .file file path ∈ facts)
    (kind : TopLevelKind) (rs : List Reading) :
    (l.recordReadings rs).Covers base (facts ++ l.readingsFacts file kind rs) := by
  induction rs generalizing l facts with
  | nil =>
    rw [readingsFacts, List.append_nil]
    exact h
  | cons r rs ih =>
    rw [readingsFacts, ← List.append_assoc]
    exact ih (h.recordReading hfile kind r) (List.mem_append_left _ hfile)

end Ledger.Covers

/-- The facts of a document, with the ledger behind its scripts. -/
theorem Harvest.covers_facts (g : Harvest) (path : Text) (kind : TopLevelKind) (last : Nat) :
    ((ledger last).recordReadings g.readings).Covers last (g.facts path kind last) := by
  have hfile : (ledger last).Covers last [.file ⟨last + 1⟩ path] :=
    (Ledger.Covers.nil (Nat.le_refl last)).emit rfl trivial fun binding name hd => by cases hd
  exact hfile.recordReadings List.mem_cons_self kind g.readings

end FenceFacts
