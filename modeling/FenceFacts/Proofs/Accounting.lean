import FenceFacts.Proofs.Harvest
import Mathlib.Algebra.GroupWithZero.Nat
import Mathlib.Data.List.Dedup

/-!
# FenceFacts — accounting for labels

A document takes a label for its file and one for every fact of its scripts,
and one for every variable.  Its scripts share a scope, so a variable counts
once however often its name is declared.  The scope knows every name that was
declared and knows none twice, which makes its size the number of variables.

## Results

* `Advances.trans`        — what two parts of a run take adds up.
* `labelsOf`, `namesOf`   — what a script takes by its analysis.
* `lastLabel_of_reads`    — what a document takes.
-/

namespace FenceFacts

-- ---------------------------------------------------------------------------
-- Names in scope
-- ---------------------------------------------------------------------------

def Scope.names (s : Scope) : List Text := s.labels.map Prod.fst

theorem Scope.lookup_eq_none_iff {s : Scope} {name : Text} :
    s.lookup name = none ↔ name ∉ s.names := by
  rw [lookup, List.lookup_eq_none_iff, names, List.mem_map, not_exists]
  constructor
  · rintro h p ⟨hp, rfl⟩
    simpa using h p hp
  · intro h p hp
    rw [bne_iff_ne]
    rintro rfl
    exact h p ⟨hp, rfl⟩

-- ---------------------------------------------------------------------------
-- What a part of a run takes
-- ---------------------------------------------------------------------------

/-- From one ledger to the other, `labels` facts have been given a label and
the `names` have been declared. -/
structure Advances (l l' : Ledger) (labels : Nat) (names : List Text) : Prop where
  lastLabel : l'.lastLabel + l.scope.names.length = l.lastLabel + labels + l'.scope.names.length
  mem_names : ∀ name, name ∈ l'.scope.names ↔ name ∈ l.scope.names ∨ name ∈ names
  nodup : l.scope.names.Nodup → l'.scope.names.Nodup

theorem Advances.refl (l : Ledger) : Advances l l 0 [] where
  lastLabel := rfl
  mem_names name := by simp
  nodup := id

/-- What two parts of a run take **adds up**. -/
theorem Advances.trans {l l' l'' : Ledger} {m n : Nat} {xs ys : List Text}
    (h : Advances l l' m xs) (h' : Advances l' l'' n ys) : Advances l l'' (m + n) (xs ++ ys) where
  lastLabel := by
    have := h.lastLabel
    have := h'.lastLabel
    omega
  mem_names name := by rw [h'.mem_names, h.mem_names, List.mem_append, or_assoc]
  nodup hl := h'.nodup (h.nodup hl)

theorem advances_spend (l : Ledger) : Advances l l.spend 1 [] where
  lastLabel := rfl
  mem_names name := by simp [Ledger.spend]
  nodup := id

/-- A declared name takes a label only if it is new. -/
theorem advances_declare (l : Ledger) (name : Text) : Advances l (l.declare name) 0 [name] := by
  unfold Ledger.declare
  cases h : l.scope.lookup name with
  | some label =>
    -- declared before: the ledger stays as it is
    have hmem : name ∈ l.scope.names := by
      by_contra hnot
      rw [Scope.lookup_eq_none_iff.mpr hnot] at h
      cases h
    refine ⟨rfl, fun x => ?_, id⟩
    rw [List.mem_singleton]
    exact ⟨Or.inl, fun hx => hx.elim id fun hx => hx ▸ hmem⟩
  | none =>
    have hnot := Scope.lookup_eq_none_iff.mp h
    refine ⟨?_, fun x => ?_, fun hnodup => List.nodup_cons.mpr ⟨hnot, hnodup⟩⟩
    · show l.lastLabel + 1 + l.scope.names.length = l.lastLabel + 0 + (l.scope.names.length + 1)
      omega
    · show x ∈ name :: l.scope.names ↔ _
      rw [List.mem_cons, List.mem_singleton, or_comm]

-- ---------------------------------------------------------------------------
-- Readings
-- ---------------------------------------------------------------------------

def Item.declared? : Item → Option Text
  | .declaration name _ => some name
  | _ => none

theorem advances_record (l : Ledger) (f : Finding) :
    Advances l (l.record f) 1 f.item.declared?.toList := by
  obtain ⟨item, location⟩ := f
  cases item with
  | line => exact advances_spend l
  | comment => exact advances_spend l
  | declaration name kind => exact (advances_declare l name).trans (advances_spend _)

theorem advances_recordAll (l : Ledger) (fs : List Finding) :
    Advances l (l.recordAll fs) fs.length (fs.filterMap (·.item.declared?)) := by
  induction fs generalizing l with
  | nil => exact Advances.refl l
  | cons f fs ih =>
    have h := (advances_record l f).trans (ih (l.record f))
    rw [Nat.add_comm] at h
    rw [List.filterMap_cons, List.length_cons]
    cases hf : f.item.declared? <;> rw [hf] at h <;> exact h

def Reading.names (r : Reading) : List Text := r.members.filterMap (·.item.declared?)

theorem advances_recordReading (l : Ledger) (r : Reading) :
    Advances l (l.recordReading r) (1 + r.members.length) r.names :=
  (advances_spend l).trans (advances_recordAll l.spend r.members)

theorem advances_recordReadings (l : Ledger) (rs : List Reading) :
    Advances l (l.recordReadings rs) (rs.map fun r => 1 + r.members.length).sum
      (rs.flatMap Reading.names) := by
  induction rs generalizing l with
  | nil => exact Advances.refl l
  | cons r rs ih =>
    rw [List.map_cons, List.sum_cons, List.flatMap_cons]
    exact (advances_recordReading l r).trans (ih (l.recordReading r))

/-- Labels for the file, for the facts of the readings and for **the distinct
names** that they declare. -/
theorem Harvest.lastLabel_eq (g : Harvest) (last : Nat) :
    g.lastLabel last = last + (1 + (g.readings.map fun r => 1 + r.members.length).sum +
      (g.readings.flatMap Reading.names).dedup.length) := by
  have h := advances_recordReadings (ledger last) g.readings
  -- the scope starts empty and knows no name twice, so it is the distinct names
  have hsize : ((ledger last).recordReadings g.readings).scope.names.length =
      (g.readings.flatMap Reading.names).dedup.length := by
    refine ((List.perm_ext_iff_of_nodup (h.nodup List.nodup_nil) (List.nodup_dedup _)).mpr
      fun name => ?_).length_eq
    rw [h.mem_names, List.mem_dedup]
    exact or_iff_right List.not_mem_nil
  have hlast := h.lastLabel
  rw [hsize] at hlast
  have hempty : (ledger last).scope.names.length = 0 := rfl
  have hfile : (ledger last).lastLabel = last + 1 := rfl
  unfold lastLabel
  omega

-- ---------------------------------------------------------------------------
-- Scripts
-- ---------------------------------------------------------------------------

/-- Labels for the facts of a script: its top level, its lines where they are
wanted, its comments and its declarations. -/
def labelsOf (options : ExtractionOptions) (text : Text) : Nat :=
  match analyze options.toAnalysisOptions text with
  | .ok a =>
    1 + ((if options.extractLines then (LineIndex.ofText text).lineCount else 0) +
      (a.comments.length + a.declarations.length))
  | .error _ => 0

def namesOf (options : ExtractionOptions) (text : Text) : List Text :=
  match analyze options.toAnalysisOptions text with
  | .ok a => a.declarations.map (·.name)
  | .error _ => []

/-- Labels for a document with these scripts: one for the file, those for the
facts and one for each of the distinct names. -/
def labelsSpent (options : ExtractionOptions) (scripts : List Text) : Nat :=
  1 + (scripts.map (labelsOf options)).sum + (scripts.flatMap (namesOf options)).dedup.length

theorem length_membersOf (options : ExtractionOptions) (text : Text) (a : Analysis) :
    (Reading.membersOf options text a).length =
      (if options.extractLines then (LineIndex.ofText text).lineCount else 0) +
        (a.comments.length + a.declarations.length) := by
  unfold Reading.membersOf
  rw [List.length_append, List.length_append, List.length_map, List.length_map]
  split
  · rw [List.length_map, List.length_zipIdx, LineIndex.length_countedLines]
  · rfl

theorem filterMap_declared?_map_eq_nil {α : Type} {f : α → Finding}
    (h : ∀ x, (f x).item.declared? = none) (xs : List α) :
    (xs.map f).filterMap (·.item.declared?) = [] := by
  rw [List.filterMap_map, List.filterMap_eq_nil_iff]
  exact fun x _ => h x

theorem filterMap_declared?_membersOf (options : ExtractionOptions) (text : Text) (a : Analysis) :
    (Reading.membersOf options text a).filterMap (·.item.declared?) =
      a.declarations.map (·.name) := by
  have hdeclarations : (a.declarations.map (Finding.ofDeclaration text (.ofText text))).filterMap
      (·.item.declared?) = a.declarations.map (·.name) := by
    rw [List.filterMap_map]
    exact congrFun List.filterMap_eq_map a.declarations
  unfold Reading.membersOf
  rw [List.filterMap_append, List.filterMap_append, hdeclarations,
    filterMap_declared?_map_eq_nil (fun _ => rfl), List.nil_append]
  split
  · rw [filterMap_declared?_map_eq_nil (fun _ => rfl), List.nil_append]
  · rfl

/-- What a reading takes is told by its script. -/
theorem of_readIn_ok {options : ExtractionOptions} {source : Source} {text : Text} {t : Translator}
    {r : Reading} (h : readIn source options text t = .ok r) :
    1 + r.members.length = labelsOf options text ∧ r.names = namesOf options text := by
  obtain ⟨a, ha, hr⟩ := exists_of_readIn_ok h
  obtain ⟨-, hitems⟩ := Reading.of_translated_ok hr
  have hmembers : (Reading.ofScript options text a).members = Reading.membersOf options text a := rfl
  rw [hmembers] at hitems
  constructor
  · have hlength := congrArg List.length hitems
    rw [List.length_map, List.length_map, length_membersOf] at hlength
    rw [labelsOf, ha, hlength]
  · have hnames := congrArg (List.filterMap Item.declared?) hitems
    rw [List.filterMap_map, List.filterMap_map] at hnames
    rw [namesOf, ha]
    exact hnames.trans (filterMap_declared?_membersOf options text a)

/-- What a document takes is told by **the scripts that were read**. -/
theorem Harvest.lastLabel_of_reads {options : ExtractionOptions} {scripts : List Text} {g : Harvest}
    (h : List.Forall₂ (fun text r => ∃ source t, readIn source options text t = .ok r) scripts
      g.readings) (last : Nat) :
    g.lastLabel last = last + labelsSpent options scripts := by
  have hsums : (g.readings.map fun r => 1 + r.members.length) = scripts.map (labelsOf options) ∧
      g.readings.flatMap Reading.names = scripts.flatMap (namesOf options) := by
    generalize g.readings = rs at h
    induction h with
    | nil => exact ⟨rfl, rfl⟩
    | cons hread _ ih =>
      obtain ⟨source, t, hread⟩ := hread
      obtain ⟨hlabels, hnames⟩ := of_readIn_ok hread
      simp only [List.map_cons, List.flatMap_cons, hlabels, hnames, ih.1, ih.2, and_self]
  rw [lastLabel_eq, hsums.1, hsums.2, labelsSpent]

end FenceFacts
