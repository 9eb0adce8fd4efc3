import FenceFacts.Proofs.LineFacts
import FenceFacts.Proofs.Range
import FenceFacts.Proofs.References
import FenceFacts.Proofs.Relabelling
import Mathlib.Data.Nat.Count

/-!
# FenceFacts — extraction without lines

Whether lines are wanted makes no difference to anything else.  A document is
accepted or rejected in the same way, its counts are the same, and the facts
are those that are left when the facts of lines are taken away.  Only labels
differ: lines no longer take any, so those behind them close up.

How they close up is settled by the labels of the lines alone.  A label is
renamed to the number of labels before it that no line has, and that renaming
is the same for all facts of a document: `ClosesUp` carries it from one ledger
to the other while the findings are recorded, through the scope as well, where
labels of earlier scripts are kept for later ones.  It keeps the order of all
labels that are not those of lines, and nothing that is left refers to a line.

## Results

* `ClosesUp.recordAll`, `ClosesUp.readingsFacts` — what recording keeps.
* `Harvest.facts_withoutLines`   — the facts of a harvest without its lines.
* `Harvest.ofMarkdown_withoutLines`, `Harvest.ofScriptFile_withoutLines` — and
  that harvest is the one of the document without lines.
* `extraction_without_lines`     — extractions with and without lines.
-/

namespace FenceFacts

-- ---------------------------------------------------------------------------
-- Labels that close up
-- ---------------------------------------------------------------------------

/-- The labels that the fact mentions: its own, those of the facts it refers
to, and that of its variable. -/
def Fact.labels : Fact → List Label
  | file l _ => [l]
  | topLevel l owner _ _ _ => [l, owner]
  | line l parent _ _ _ => [l, parent]
  | comment l parent _ _ => [l, parent]
  | declaration l parent binding _ _ _ => [l, parent, binding]

/-- The label when only some of those before it are counted. -/
def Label.among (kept : Nat → Prop) [DecidablePred kept] (l : Label) : Label :=
  ⟨Nat.count kept l.number⟩

/-- No line among the facts has this label. -/
def IsNoLine (facts : List Fact) (n : Nat) : Prop :=
  ∀ f ∈ facts, f.label.number = n → f.line? = none

instance (facts : List Fact) : DecidablePred (IsNoLine facts) := fun n =>
  inferInstanceAs (Decidable (∀ f ∈ facts, f.label.number = n → f.line? = none))

/-- The facts that are left, with labels that have closed up. -/
def withoutLines (facts : List Fact) : List Fact :=
  (facts.filter (·.line?.isNone)).map (·.renamed (Label.among (IsNoLine facts)))

-- ---------------------------------------------------------------------------
-- Two ledgers
-- ---------------------------------------------------------------------------

/-- The second ledger has handed out the labels that are kept of the first
one, closed up. -/
structure ClosesUp (kept : Nat → Prop) [DecidablePred kept] (l l' : Ledger) : Prop where
  next : l'.next = l.next.among kept
  scope : l'.scope = l.scope.renamed (Label.among kept)

/-- The labels that are handed out for the fact are kept, unless it is a line. -/
structure Fact.KeptBy (kept : Nat → Prop) (f : Fact) : Prop where
  label : kept f.label.number ↔ f.line? = none
  binding : ∀ binding name, f.declared? = some (binding, name) → kept binding.number

namespace ClosesUp

variable {kept : Nat → Prop} [DecidablePred kept] {l l' : Ledger}

/-- A label that is **kept** is handed out in both. -/
theorem spend (h : ClosesUp kept l l') (hkept : kept l.next.number) :
    ClosesUp kept l.spend l'.spend := by
  refine ⟨?_, h.scope⟩
  have hnext : l'.lastLabel + 1 = Nat.count kept (l.lastLabel + 1) := congrArg Label.number h.next
  have hkept : kept (l.lastLabel + 1) := hkept
  show (⟨l'.lastLabel + 1 + 1⟩ : Label) = ⟨Nat.count kept (l.lastLabel + 1 + 1)⟩
  rw [Nat.count_succ, if_pos hkept, hnext]

/-- One that is **not kept** is handed out in the first only. -/
theorem skip (h : ClosesUp kept l l') (hkept : ¬ kept l.next.number) :
    ClosesUp kept l.spend l' := by
  refine ⟨?_, h.scope⟩
  have hkept : ¬ kept (l.lastLabel + 1) := hkept
  rw [h.next]
  show (⟨Nat.count kept (l.lastLabel + 1)⟩ : Label) = ⟨Nat.count kept (l.lastLabel + 1 + 1)⟩
  rw [Nat.count_succ kept (l.lastLabel + 1), if_neg hkept]
  rfl

/-- A name is known in both or in none. -/
theorem declare (h : ClosesUp kept l l') {name : Text} (hkept : kept (l.binding name).number) :
    ClosesUp kept (l.declare name) (l'.declare name) ∧
      l'.binding name = (l.binding name).among kept := by
  have hlookup : l'.scope.lookup name = (l.scope.lookup name).map (Label.among kept) := by
    rw [h.scope, Scope.lookup_renamed]
  unfold Ledger.declare Ledger.binding at *
  rw [hlookup]
  cases hname : l.scope.lookup name with
  | some label => exact ⟨h, rfl⟩
  | none =>
    rw [hname] at hkept
    have hspend := h.spend hkept
    refine ⟨⟨hspend.next, ?_⟩, h.next⟩
    show l'.scope.bind name l'.next = (l.scope.bind name l.next).renamed (Label.among kept)
    rw [h.scope, h.next]
    rfl

variable {topLevel : Label}

/-- A finding other than a line is **recorded in both**. -/
theorem record (h : ClosesUp kept l l') {f : Finding} (hline : f.line? = none)
    (hkept : (l.factOf topLevel f).KeptBy kept) :
    ClosesUp kept (l.record f) (l'.record f) ∧
      l'.factOf (topLevel.among kept) f =
        (l.factOf topLevel f).renamed (Label.among kept) := by
  have hlabel : kept (l.factOf topLevel f).label.number :=
    hkept.label.mpr ((l.line?_factOf topLevel f).trans hline)
  obtain ⟨item, location⟩ := f
  cases item with
  | line text terminator => cases hline
  | comment text => exact ⟨h.spend hlabel, congrArg (Fact.comment · _ text location) h.next⟩
  | declaration name kind =>
    obtain ⟨hdeclare, hbinding⟩ := h.declare (hkept.binding (l.binding name) name rfl)
    refine ⟨hdeclare.spend hlabel, ?_⟩
    show Fact.declaration (l'.declare name).next _ (l'.binding name) name kind location = _
    rw [hdeclare.next, hbinding]
    rfl

/-- The findings of a script, **one after the other**. -/
theorem recordAll (h : ClosesUp kept l l') {fs : List Finding}
    (hkept : ∀ f ∈ l.factsOf topLevel fs, f.KeptBy kept) :
    ClosesUp kept (l.recordAll fs) (l'.recordAll (fs.filter (·.line?.isNone))) ∧
      l'.factsOf (topLevel.among kept) (fs.filter (·.line?.isNone)) =
        ((l.factsOf topLevel fs).filter (·.line?.isNone)).map (·.renamed (Label.among kept)) := by
  induction fs generalizing l l' with
  | nil => exact ⟨h, rfl⟩
  | cons f fs ih =>
    rw [Ledger.factsOf] at hkept ⊢
    obtain ⟨hf, hfs⟩ := List.forall_mem_cons.mp hkept
    cases hline : f.line? with
    | none =>
      have hfact := (l.line?_factOf topLevel f).trans hline
      obtain ⟨hrecord, hsame⟩ := h.record hline hf
      obtain ⟨hrest, hfacts⟩ := ih hrecord hfs
      rw [List.filter_cons_of_pos (by rw [hline]; rfl),
        List.filter_cons_of_pos (by rw [hfact]; rfl), List.map_cons, Ledger.factsOf, hfacts, hsame]
      exact ⟨hrest, rfl⟩
    | some line =>
      have hfact := (l.line?_factOf topLevel f).trans hline
      have hskip : ClosesUp kept (l.record f) l' := by
        have hlabel : ¬ kept (l.factOf topLevel f).label.number := fun hlabel => by
          rw [hf.label.mp hlabel] at hfact
          cases hfact
        obtain ⟨item, location⟩ := f
        cases item with
        | line text terminator => exact h.skip hlabel
        | comment text => cases hline
        | declaration name kind => cases hline
      rw [List.filter_cons_of_neg (by rw [hline]; exact Bool.false_ne_true),
        List.filter_cons_of_neg (by rw [hfact]; exact Bool.false_ne_true)]
      exact ih hskip hfs

end ClosesUp

-- ---------------------------------------------------------------------------
-- Readings
-- ---------------------------------------------------------------------------

def Reading.withoutLines (r : Reading) : Reading :=
  { r with members := r.members.filter (·.line?.isNone) }

def Harvest.withoutLines (g : Harvest) : Harvest :=
  { g with readings := g.readings.map Reading.withoutLines }

namespace ClosesUp

variable {kept : Nat → Prop} [DecidablePred kept] {l l' : Ledger} {file : Label}
  {kind : TopLevelKind}

/-- A script, behind the fact for its top level. -/
theorem recordReading (h : ClosesUp kept l l') {r : Reading}
    (hkept : ∀ f ∈ l.readingFacts file kind r, f.KeptBy kept) :
    ClosesUp kept (l.recordReading r) (l'.recordReading r.withoutLines) ∧
      l'.readingFacts (file.among kept) kind r.withoutLines =
        ((l.readingFacts file kind r).filter (·.line?.isNone)).map
          (·.renamed (Label.among kept)) := by
  obtain ⟨htop, hmembers⟩ := List.forall_mem_cons.mp hkept
  obtain ⟨hrecord, hfacts⟩ := (h.spend (htop.label.mpr rfl)).recordAll hmembers
  refine ⟨hrecord, ?_⟩
  rw [Ledger.readingFacts, Ledger.readingFacts, List.filter_cons_of_pos (by rfl), List.map_cons,
    ← hfacts, h.next]
  rfl

/-- The scripts of a document, **one after the other**. -/
theorem readingsFacts (h : ClosesUp kept l l') {rs : List Reading}
    (hkept : ∀ f ∈ l.readingsFacts file kind rs, f.KeptBy kept) :
    l'.readingsFacts (file.among kept) kind (rs.map Reading.withoutLines) =
      ((l.readingsFacts file kind rs).filter (·.line?.isNone)).map
        (·.renamed (Label.among kept)) := by
  induction rs generalizing l l' with
  | nil => rfl
  | cons r rs ih =>
    rw [Ledger.readingsFacts] at hkept ⊢
    obtain ⟨hr, hrs⟩ := List.forall_mem_append.mp hkept
    obtain ⟨hrecord, hfacts⟩ := h.recordReading hr
    rw [List.map_cons, Ledger.readingsFacts, hfacts, ih hrecord hrs, List.filter_append,
      List.map_append]

end ClosesUp

-- ---------------------------------------------------------------------------
-- The facts of a document
-- ---------------------------------------------------------------------------

namespace Ledger.Covers

variable {l : Ledger} {base : Nat} {facts : List Fact}

theorem eq_of_label_eq (h : l.Covers base facts) {f g : Fact} (hf : f ∈ facts) (hg : g ∈ facts)
    (hlabel : f.label.number = g.label.number) : f = g := by
  have hnodup : (facts.map (·.label.number)).Nodup :=
    List.pairwise_map.mpr (h.increasing.imp Nat.ne_of_lt)
  exact List.inj_on_of_nodup_map hnodup hf hg hlabel

/-- No line has the label of another fact. -/
theorem isNoLine_label (h : l.Covers base facts) {f : Fact} (hf : f ∈ facts) :
    IsNoLine facts f.label.number ↔ f.line? = none := by
  constructor
  · intro hno
    exact hno f hf rfl
  · intro hline g hg hlabel
    rw [h.eq_of_label_eq hg hf hlabel]
    exact hline

/-- No line has the label of a variable. -/
theorem isNoLine_binding (h : l.Covers base facts) {f : Fact} (hf : f ∈ facts) {binding : Label}
    {name : Text} (hname : f.declared? = some (binding, name)) :
    IsNoLine facts binding.number := by
  intro g hg hlabel
  have hne := h.binding_ne name binding (h.declared f hf binding name hname) g hg
  exact absurd (congrArg Label.mk hlabel).symm hne

theorem keptBy (h : l.Covers base facts) {f : Fact} (hf : f ∈ facts) :
    f.KeptBy (IsNoLine facts) :=
  ⟨h.isNoLine_label hf, fun _ _ hname => h.isNoLine_binding hf hname⟩

/-- **Nothing refers to a line.** -/
theorem isNoLine_of_mem_labels (h : l.Covers base facts) {f : Fact} (hf : f ∈ facts)
    (hline : f.line? = none) {label : Label} (hlabel : label ∈ f.labels) :
    IsNoLine facts label.number := by
  have hown : IsNoLine facts f.label.number := (h.isNoLine_label hf).mpr hline
  obtain ⟨before, after, hsplit⟩ := List.append_of_mem hf
  have hrefers := h.refersBack before f after hsplit
  have hbefore : before ⊆ facts := by
    rw [hsplit]
    exact List.subset_append_left _ _
  have htopLevel (owner : Label) (howner : lastTopLevel? before = some owner) :
      IsNoLine facts owner.number := by
    obtain ⟨g, hg, hgowner⟩ := List.mem_filterMap.mp (List.mem_of_getLast? howner)
    cases g with
    | topLevel =>
      cases hgowner
      exact (h.isNoLine_label (hbefore hg)).mpr rfl
    | _ => cases hgowner
  cases f with
  | file =>
    obtain rfl := List.mem_singleton.mp hlabel
    exact hown
  | topLevel _ owner =>
    obtain ⟨path, hpath⟩ := hrefers
    rcases List.mem_pair.mp hlabel with rfl | rfl
    · exact hown
    · exact (h.isNoLine_label (hbefore hpath)).mpr rfl
  | line => cases hline
  | comment =>
    rcases List.mem_pair.mp hlabel with rfl | rfl
    · exact hown
    · exact htopLevel _ hrefers
  | declaration _ _ binding name =>
    rcases List.mem_cons.mp hlabel with rfl | hlabel
    · exact hown
    · rcases List.mem_pair.mp hlabel with rfl | rfl
      · exact htopLevel _ hrefers
      · exact h.isNoLine_binding hf rfl

end Ledger.Covers

/-- Of the labels that are mentioned by facts other than lines, an earlier one
is renamed to an earlier one. -/
def RenamesInOrder (facts : List Fact) : Prop :=
  ∀ f ∈ facts, ∀ g ∈ facts, f.line? = none → g.line? = none →
    ∀ l ∈ f.labels, ∀ l' ∈ g.labels, l.number < l'.number →
      (l.among (IsNoLine facts)).number < (l'.among (IsNoLine facts)).number

namespace Harvest

variable (g : Harvest) (path : Text) (kind : TopLevelKind) (last : Nat)

theorem renamesInOrder_facts : RenamesInOrder (g.facts path kind last) := by
  intro f hf f' _ hline _ l hl l' _ hlt
  have hkept := (g.covers_facts path kind last).isNoLine_of_mem_labels hf hline hl
  exact Nat.count_strict_mono hkept hlt

/-- The facts of a harvest **without its lines**. -/
theorem facts_withoutLines :
    g.withoutLines.facts path kind last = FenceFacts.withoutLines (g.facts path kind last) := by
  have hcovers := g.covers_facts path kind last
  -- labels up to that of the file come before those of all lines
  have hfirst : (⟨last + 1⟩ : Label) =
      Label.among (IsNoLine (g.facts path kind last)) ⟨last + 1⟩ := by
    refine congrArg Label.mk (Nat.count_iff_forall.mpr fun n hn f hf hlabel => ?_).symm
    have hmem := (hcovers.label_mem f hf).1
    omega
  have hfile : IsNoLine (g.facts path kind last) (last + 1) :=
    (hcovers.isNoLine_label (List.mem_cons_self (a := Fact.file ⟨last + 1⟩ path))).mpr rfl
  have hempty : ClosesUp (IsNoLine (g.facts path kind last)) ⟨{}, last⟩ ⟨{}, last⟩ := ⟨hfirst, rfl⟩
  have hledger : ClosesUp (IsNoLine (g.facts path kind last)) (ledger last) (ledger last) :=
    hempty.spend hfile
  have hreadings := hledger.readingsFacts fun f hf => hcovers.keptBy (List.mem_cons_of_mem _ hf)
  rw [← hfirst] at hreadings
  show _ :: (ledger last).readingsFacts ⟨last + 1⟩ kind (g.readings.map _) = _
  rw [hreadings, FenceFacts.withoutLines]
  show _ = (Fact.file (Label.among _ ⟨last + 1⟩) path) :: _
  rw [← hfirst]

end Harvest

-- ---------------------------------------------------------------------------
-- Reading without lines
-- ---------------------------------------------------------------------------

namespace Finding

variable {t : Translator} {fs gs : List Finding}

/-- What has a place has one without the lines, too. -/
theorem mapM_translated_filter (h : fs.mapM (·.translated t) = .ok gs) :
    (fs.filter (·.line?.isNone)).mapM (·.translated t) = .ok (gs.filter (·.line?.isNone)) := by
  have hplaced := forall₂_translated h
  clear h
  induction hplaced with
  | nil => rfl
  | cons hf _ ih =>
    rcases placedBy_of_translated hf with ⟨hl, hm⟩ | ⟨l, m, hl, hm, -⟩
    · rw [List.filter_cons_of_pos (by rw [hl]; rfl), List.filter_cons_of_pos (by rw [hm]; rfl),
        List.mapM_cons, hf, ih]
      rfl
    · rw [List.filter_cons_of_neg (by rw [hl]; exact Bool.false_ne_true),
        List.filter_cons_of_neg (by rw [hm]; exact Bool.false_ne_true)]
      exact ih

theorem filter_map_others {α : Type} {finding : α → Finding} (h : ∀ x, (finding x).line? = none)
    (xs : List α) : (xs.map finding).filter (·.line?.isNone) = xs.map finding := by
  refine List.filter_eq_self.mpr fun f hf => ?_
  obtain ⟨x, -, rfl⟩ := List.mem_map.mp hf
  rw [h, Option.isNone_none]

theorem filter_map_lines {α : Type} {finding : α → Finding}
    (h : ∀ x, (finding x).line?.isNone = false) (xs : List α) :
    (xs.map finding).filter (·.line?.isNone) = [] := by
  refine List.filter_eq_nil_iff.mpr fun f hf => ?_
  obtain ⟨x, -, rfl⟩ := List.mem_map.mp hf
  rw [h]
  exact Bool.false_ne_true

end Finding

theorem Reading.translated_withoutLines {t : Translator} {r r' : Reading}
    (h : r.translated t = .ok r') : r.withoutLines.translated t = .ok r'.withoutLines := by
  obtain ⟨body, members, hbody, hmembers, rfl⟩ := exists_of_translated_ok h
  rw [translated, withoutLines, hbody]
  show (do let members ← (r.members.filter _).mapM _; _ : Except Fault Reading) = _
  rw [Finding.mapM_translated_filter hmembers]
  rfl

section Options

variable (options : ExtractionOptions)

/-- Comments and declarations are found with or without lines. -/
theorem Reading.membersOf_withoutLines (text : Text) (a : Analysis) :
    membersOf { options with extractLines := false } text a =
      (membersOf options text a).filter (·.line?.isNone) := by
  unfold membersOf
  dsimp only
  rw [List.filter_append, List.filter_append, Finding.filter_map_others fun _ => rfl,
    Finding.filter_map_others fun _ => rfl, if_neg Bool.false_ne_true]
  split
  · rw [Finding.filter_map_lines fun _ => rfl]
  · rfl

/-- A script that is read is read **without its lines**; if that fails it is
because of a fault. -/
theorem readScript_withoutLines (text : Text) (t : Translator) :
    (∃ f, readScript options text t = .error (.fault f)) ∨
      readScript { options with extractLines := false } text t =
        (readScript options text t).map Reading.withoutLines := by
  unfold readScript
  cases ha : analyze options.toAnalysisOptions text with
  | error e => exact Or.inr rfl
  | ok a =>
    dsimp only
    cases hr : (Reading.ofScript options text a).translated t with
    | error f => exact Or.inl ⟨f, rfl⟩
    | ok r =>
      have hscript : Reading.ofScript { options with extractLines := false } text a =
          (Reading.ofScript options text a).withoutLines := by
        rw [Reading.ofScript, Reading.membersOf_withoutLines]
        rfl
      rw [hscript, Reading.translated_withoutLines hr]
      exact Or.inr rfl

theorem readIn_withoutLines (source : Source) (text : Text) (t : Translator) :
    (∃ f, readIn source options text t = .error (.fault f)) ∨
      readIn source { options with extractLines := false } text t =
        (readIn source options text t).map Reading.withoutLines := by
  unfold readIn
  rcases readScript_withoutLines options text t with ⟨f, hfault⟩ | hsame
  · rw [hfault]
    exact Or.inl ⟨f, rfl⟩
  · rw [hsame]
    right
    cases readScript options text t with
    | error e => rfl
    | ok r => rfl

variable (d : Document)

theorem readBlock_withoutLines (b : Block) :
    (∃ f, readBlock options d b = .error (.fault f)) ∨
      readBlock { options with extractLines := false } d b =
        (readBlock options d b).map Reading.withoutLines := by
  unfold readBlock
  cases d.anchor b with
  | error f => exact Or.inl ⟨f, rfl⟩
  | ok anchor => exact readIn_withoutLines options d.source b.content ⟨anchor⟩

/-- The blocks of a document, **up to the same one**. -/
theorem readBlocks_withoutLines (totals : LineTotals) (bs : List Block) :
    (∃ f, (readBlocks options d totals bs).result = .error (.fault f)) ∨
      readBlocks { options with extractLines := false } d totals bs =
        (readBlocks options d totals bs).withoutLines := by
  induction bs generalizing totals with
  | nil => exact Or.inr rfl
  | cons b bs ih =>
    by_cases hblank : b.isBlank = true
    · rw [readBlocks_of_blank hblank, readBlocks_of_blank hblank]
      exact ih totals
    · rcases readBlock_withoutLines options d b with ⟨f, hfault⟩ | hread'
      · rw [readBlocks_of_error hblank hfault]
        exact Or.inl ⟨f, rfl⟩
      · cases hread : readBlock options d b with
        | error e =>
          rw [hread] at hread'
          rw [readBlocks_of_error hblank hread, readBlocks_of_error hblank hread']
          exact Or.inr rfl
        | ok r =>
          rw [hread] at hread'
          cases hadd : totals.add r.lines with
          | error f =>
            rw [readBlocks_of_overflow hblank hread hadd]
            exact Or.inl ⟨f, rfl⟩
          | ok totals' =>
            rw [readBlocks_of_ok hblank hread hadd, readBlocks_of_ok hblank hread' hadd]
            rcases ih totals' with ⟨f, hfault⟩ | hrest
            · exact Or.inl ⟨f, hfault⟩
            · rw [hrest]
              exact Or.inr rfl

/-- What is read of a Markdown document **without lines**. -/
theorem Harvest.ofMarkdown_withoutLines :
    (∃ f, (ofMarkdown options d).result = .error (.fault f)) ∨
      ofMarkdown { options with extractLines := false } d = (ofMarkdown options d).withoutLines :=
  readBlocks_withoutLines options.forBlocks d {} d.scan.blocks

/-- And of a script file. -/
theorem Harvest.ofScriptFile_withoutLines :
    (∃ f, (ofScriptFile options d).result = .error (.fault f)) ∨
      ofScriptFile { options with extractLines := false } d =
        (ofScriptFile options d).withoutLines := by
  unfold ofScriptFile
  rcases readIn_withoutLines options d.source d.text {} with ⟨f, hfault⟩ | hsame
  · rw [hfault]
    exact Or.inl ⟨f, rfl⟩
  · rw [hsame]
    right
    cases readIn d.source options d.text {} with
    | error e => rfl
    | ok r => rfl

end Options

-- ---------------------------------------------------------------------------
-- Extractions
-- ---------------------------------------------------------------------------

section Extractions

variable {σ : Type} [FactStore σ]

/-- Both deliver with the same answer, the second without the lines and with
labels that have closed up in order, or both refuse with the same error. -/
def AgreeButForLines (extraction extraction' : EStateM ExtractionFailure (Sink σ) LineTotals)
    (s : Sink σ) : Prop :=
  (∃ totals facts last last', Delivers extraction s totals facts last ∧
    Delivers extraction' s totals (withoutLines facts) last' ∧ RenamesInOrder facts) ∨
  ∃ e last last', Refuses extraction s e last ∧ Refuses extraction' s e last'

/-- Extractions agree as far as **their harvests** do. -/
theorem Harvest.Follows.agreeButForLines {g : Harvest} {path : Text} {kind : TopLevelKind}
    {work work' : EStateM ExtractionFailure (Sink (Draft σ)) LineTotals}
    (h : g.Follows work path kind) (h' : g.withoutLines.Follows work' path kind) (s : Sink σ) :
    AgreeButForLines (Sink.transaction .write work) (Sink.transaction .write work') s := by
  cases hresult : g.result with
  | ok totals =>
    have hdelivers := h'.delivers (show g.withoutLines.result = .ok totals from hresult) s
    rw [facts_withoutLines] at hdelivers
    exact Or.inl ⟨totals, _, _, _, h.delivers hresult s, hdelivers,
      g.renamesInOrder_facts path kind s.lastLabel⟩
  | error e =>
    obtain ⟨last, hrefuses⟩ := h.exists_refuses hresult s
    obtain ⟨last', hrefuses'⟩ :=
      h'.exists_refuses (show g.withoutLines.result = .error e from hresult) s
    exact Or.inr ⟨e, last, last', hrefuses, hrefuses'⟩

/-- Wanting lines **adds lines and nothing else**.  A Markdown document or a
script file has the same answer or the same error with and without them, and
its facts without them are the others when the lines are left out and all
labels have closed up in order.  If that is not so, the document has numbers
out of range and ends in a fault. -/
theorem extraction_without_lines (options : ExtractionOptions) (d : Document) (s : Sink σ) :
    (AgreeButForLines (extractMarkdown { options with extractLines := true } d)
        (extractMarkdown { options with extractLines := false } d) s ∨
      (∃ f last, Refuses (extractMarkdown { options with extractLines := true } d) s (.fault f)
        last) ∧ ¬ d.text.Fits) ∧
    (AgreeButForLines (extractScriptFile { options with extractLines := true } d)
        (extractScriptFile { options with extractLines := false } d) s ∨
      (∃ f last, Refuses (extractScriptFile { options with extractLines := true } d) s (.fault f)
        last) ∧ ¬ d.text.Fits) := by
  -- in range there are no faults
  have hrange {g : Harvest} {f : Fault} (hsettled : d.text.Fits → g.IsSettled d.source)
      (hfault : g.result = .error (.fault f)) : ¬ d.text.Fits := fun hfits => by
    rcases hsettled hfits with ⟨totals, hok⟩ | ⟨e, hparse⟩
    · rw [hok] at hfault
      cases hfault
    · rw [hparse] at hfault
      cases hfault
  constructor
  · have h := markdown_follows (σ := Draft σ) { options with extractLines := true } d
    have h' := markdown_follows (σ := Draft σ) { options with extractLines := false } d
    rcases Harvest.ofMarkdown_withoutLines { options with extractLines := true } d with
      ⟨f, hfault⟩ | hlines
    · obtain ⟨last, hrefuses⟩ := h.exists_refuses hfault s
      exact Or.inr ⟨⟨f, last, hrefuses⟩,
        hrange (fun hfits => Harvest.ofMarkdown_isSettled hfits _) hfault⟩
    · rw [hlines] at h'
      exact Or.inl (h.agreeButForLines h' s)
  · have h := scriptFile_follows (σ := Draft σ) { options with extractLines := true } d
    have h' := scriptFile_follows (σ := Draft σ) { options with extractLines := false } d
    rcases Harvest.ofScriptFile_withoutLines { options with extractLines := true } d with
      ⟨f, hfault⟩ | hlines
    · obtain ⟨last, hrefuses⟩ := h.exists_refuses hfault s
      exact Or.inr ⟨⟨f, last, hrefuses⟩,
        hrange (fun hfits => Harvest.ofScriptFile_isSettled hfits _) hfault⟩
    · rw [hlines] at h'
      exact Or.inl (h.agreeButForLines h' s)

end Extractions

end FenceFacts
