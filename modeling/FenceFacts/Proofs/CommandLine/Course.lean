import FenceFacts.CommandLine.Run
import FenceFacts.Proofs.Driver
import FenceFacts.Proofs.Independence
import FenceFacts.Proofs.Safety

/-!
# FenceFacts — the course of a run

A run takes its inputs one after another, and each of them comes to an end of
its own: it cannot be read, its script is rejected, or it is extracted.  Which
end that is depends on the input and on the files that there are by then, and
on nothing that came before.  The report of a run is the sum of these ends,
and so is what reaches the store.

Only numbers that are too large keep an input from coming to an end: a line of
a document, or the line counts together.

## Results

* `extractInput_comesTo` — one input.
* `forM_extractInput`    — all of them.
* `Course.writeAll`      — what has reached the store.
-/

namespace FenceFacts

-- ---------------------------------------------------------------------------
-- Inputs
-- ---------------------------------------------------------------------------

/-- The step that extracts the document of an input. -/
def InputFile.step (options : ExtractionOptions) (input : InputFile) (d : Document) : SessionStep :=
  if isScriptPath input.path then .script options d else .markdown options d

/-- What an input comes to. -/
inductive InputEnd
  | failed (message : String)
  | extracted (source : Source) (counts : LineTotals) (facts : List Fact)

namespace InputEnd

def isFailed : InputEnd → Bool
  | failed _ => true
  | extracted _ _ _ => false

/-- The line among the errors. -/
def message? : InputEnd → Option String
  | failed message => some (message ++ "\n")
  | extracted _ _ _ => none

/-- The line in the output. -/
def summary? : InputEnd → Option String
  | failed _ => none
  | extracted source counts _ => some s!"{source}: {counts.describe}\n"

def counts? : InputEnd → Option LineTotals
  | failed _ => none
  | extracted _ counts _ => some counts

def facts : InputEnd → List Fact
  | failed _ => []
  | extracted _ _ facts => facts

end InputEnd

/-- What an input comes to on these files when `n` labels are spent, and how
many are spent then.  Its document cannot be read; or it is extracted as it
would be alone, where it is rejected or has facts, which come behind the
labels that are spent. -/
inductive ComesToEnd (options : ExtractionOptions) (t : FileTree) (n : Nat) (input : InputFile) :
    InputEnd → Nat → Prop
  | unreadable {e : InputError} (h : t.document input = .error e) :
    ComesToEnd options t n input (.failed (String.ofList input.path ++ ": " ++ e.message)) n
  | rejected {d : Document} {source : Source} {e : ParseError} (hd : t.document input = .ok d)
    (h : (input.step options d).answer? ({ store := {} } : Sink FactList) =
      some (.error (.parse source e))) :
    ComesToEnd options t n input (.failed (ExtractionFailure.parse source e).message)
      (n + (input.step options d).spent)
  | extracted {d : Document} {counts : LineTotals} (hd : t.document input = .ok d)
    (h : (input.step options d).answer? ({ store := {} } : Sink FactList) = some (.ok counts)) :
    ComesToEnd options t n input
      (.extracted d.source counts ((input.step options d).facts.map (·.shifted n)))
      (n + (input.step options d).spent)

section Course

variable {σ : Type} [FactStore σ]

/-- The inputs come to these ends, one after the other, each on the files that
there are when the store has the facts of those before it. -/
inductive Course (options : ExtractionOptions) (files : σ → FileTree) :
    σ → Nat → List InputFile → List InputEnd → σ → Nat → Prop
  | nil (store : σ) (n : Nat) : Course options files store n [] [] store n
  | cons {store store' final : σ} {n n' last : Nat} {input : InputFile} {inputs : List InputFile}
    {e : InputEnd} {ends : List InputEnd} (h : ComesToEnd options (files store) n input e n')
    (hwrite : FactStore.writeAll e.facts store = .ok () store')
    (hrest : Course options files store' n' inputs ends final last) :
    Course options files store n (input :: inputs) (e :: ends) final last

variable {options : ExtractionOptions} {files : σ → FileTree} {store final : σ} {n last : Nat}
  {inputs : List InputFile} {ends : List InputEnd}

theorem Course.length_eq (h : Course options files store n inputs ends final last) :
    ends.length = inputs.length := by
  induction h with
  | nil => rfl
  | cons _ _ _ ih => rw [List.length_cons, List.length_cons, ih]

/-- The facts of all inputs have reached the store, **in the order of the
inputs**. -/
theorem Course.writeAll (h : Course options files store n inputs ends final last) :
    FactStore.writeAll (ends.flatMap InputEnd.facts) store = .ok () final := by
  induction h with
  | nil => rfl
  | cons _ hwrite _ ih =>
    rw [List.flatMap_cons, FactStore.writeAll_append_of_ok hwrite]
    exact ih

end Course

-- ---------------------------------------------------------------------------
-- Reports
-- ---------------------------------------------------------------------------

namespace LineTotals

theorem total_concat (counts : List LineTotals) (c : LineTotals) :
    total (counts ++ [c]) = ⟨(total counts).code + c.code, (total counts).comments + c.comments⟩ := by
  simp only [total, List.map_append, List.map_singleton, List.sum_append, List.sum_singleton]

/-- A sum out of range is a fault. -/
theorem exists_of_add {a b : LineTotals}
    (h : ¬ (⟨a.code + b.code, a.comments + b.comments⟩ : LineTotals).InRange) :
    ∃ f, a.add b = .error f := by
  rw [add, sumCounts, sumCounts]
  by_cases hcode : a.code + b.code < bound
  · have hcomments : ¬ a.comments + b.comments < bound := fun hcomments => h ⟨hcode, hcomments⟩
    rw [if_pos hcode, if_neg hcomments]
    exact ⟨_, rfl⟩
  · rw [if_neg hcode]
    exact ⟨_, rfl⟩

end LineTotals

/-- The report of inputs that have come to these ends. -/
def Report.of (ends : List InputEnd) : Report where
  documents := ends.length
  failed := ends.countP InputEnd.isFailed
  totals := .total (ends.filterMap InputEnd.counts?)
  output := String.join (ends.filterMap InputEnd.summary?)
  errors := String.join (ends.filterMap InputEnd.message?)

namespace Report

variable {ends : List InputEnd} {source : Source} {counts : LineTotals} {facts : List Fact}

theorem addFailed_of (ends : List InputEnd) (message : String) :
    (Report.of ends).addFailed message = .of (ends ++ [.failed message]) := by
  simp only [addFailed, Report.of, List.length_append, List.length_singleton, List.countP_append,
    List.countP_singleton, List.filterMap_append, List.filterMap_cons, List.filterMap_nil,
    InputEnd.isFailed, InputEnd.counts?, InputEnd.summary?, InputEnd.message?, List.append_nil,
    String.join_append, String.join_cons, String.join_nil, String.append_empty, String.append_assoc,
    if_true]

/-- With the counts in range, one more summary. -/
theorem addExtracted_of (source : Source) (facts : List Fact)
    (h : (LineTotals.total (ends.filterMap InputEnd.counts? ++ [counts])).InRange) :
    (Report.of ends).addExtracted source counts =
      .ok (.of (ends ++ [.extracted source counts facts])) := by
  rw [LineTotals.total_concat] at h
  have hadd : (Report.of ends).totals.add counts = .ok _ := LineTotals.add_of_lt h.1 h.2
  rw [addExtracted, hadd]
  show Except.ok _ = _
  simp only [Report.of, List.length_append, List.length_singleton, List.countP_append,
    List.countP_singleton, List.filterMap_append, List.filterMap_cons, List.filterMap_nil,
    InputEnd.isFailed, InputEnd.counts?, InputEnd.summary?, InputEnd.message?, List.append_nil,
    String.join_append, String.join_cons, String.join_nil, String.append_empty,
    LineTotals.total_concat, Bool.false_eq_true, if_false, Nat.add_zero]

theorem exists_of_addExtracted (source : Source)
    (h : ¬ (LineTotals.total (ends.filterMap InputEnd.counts? ++ [counts])).InRange) :
    ∃ f, (Report.of ends).addExtracted source counts = .error f := by
  rw [LineTotals.total_concat] at h
  obtain ⟨f, hadd⟩ := LineTotals.exists_of_add (a := (Report.of ends).totals) h
  refine ⟨f, ?_⟩
  rw [addExtracted, hadd]
  rfl

end Report

namespace RunState

variable {σ : Type} {s : RunState σ} {done : List InputEnd} {counts : LineTotals}

/-- What becomes of a run by a document with this source, by the answer to it
and the sink that is left. -/
def after (s : RunState σ) (source : Source) (sink : Sink σ) :
    Except ExtractionFailure LineTotals → EStateM.Result RunError (RunState σ) Unit
  | .ok counts =>
    match s.report.addExtracted source counts with
    | .ok report => .ok () ⟨sink, report⟩
    | .error f => .error (.fault f) { s with sink }
  | .error (.parse source e) =>
    .ok () ⟨sink, s.report.addFailed (ExtractionFailure.parse source e).message⟩
  | .error (.write e) => .error (.write e) { s with sink }
  | .error (.fault f) => .error (.fault f) { s with sink }

theorem after_ok (hreport : s.report = .of done) (source : Source)
    (sink : Sink σ) (facts : List Fact)
    (h : (LineTotals.total (done.filterMap InputEnd.counts? ++ [counts])).InRange) :
    s.after source sink (.ok counts) =
      .ok () ⟨sink, .of (done ++ [.extracted source counts facts])⟩ := by
  rw [after, hreport, Report.addExtracted_of source facts h]

theorem exists_of_after (hreport : s.report = .of done)
    (source : Source) (sink : Sink σ)
    (h : ¬ (LineTotals.total (done.filterMap InputEnd.counts? ++ [counts])).InRange) :
    ∃ f s', s.after source sink (.ok counts) = .error (.fault f) s' := by
  obtain ⟨f, hadd⟩ := Report.exists_of_addExtracted source h
  rw [after, hreport, hadd]
  exact ⟨f, _, rfl⟩

end RunState

-- ---------------------------------------------------------------------------
-- One input
-- ---------------------------------------------------------------------------

/-- A step without other steps has the answer of the harvest, and facts only
with counts. -/
theorem Harvest.Follows.alone {g : Harvest} {path : Text} {kind : TopLevelKind}
    {work : EStateM ExtractionFailure (Sink (Draft FactList)) LineTotals}
    (h : g.Follows work path kind) (s : Sink FactList) :
    resultOf (Sink.transaction .write work s) = g.result ∧
      ((∃ e, g.result = .error e) → (stateAfter (Sink.transaction .write work s)).store = s.store) := by
  cases hresult : g.result with
  | ok totals =>
    obtain ⟨notes, hrun⟩ := h.delivers hresult s
    rw [FactStore.writeAll_factList] at hrun
    rw [hrun]
    exact ⟨rfl, nofun⟩
  | error e =>
    obtain ⟨last, notes, hrun⟩ := h.exists_refuses hresult s
    rw [hrun]
    exact ⟨rfl, fun _ => rfl⟩

/-- How a step ends that extracts a document and has no store to fear. -/
inductive SessionStep.Settles (step : SessionStep) (d : Document) : Prop
  | counted {counts : LineTotals}
    (h : step.answer? ({ store := {} } : Sink FactList) = some (.ok counts))
  | rejected {source : Source} {e : ParseError}
    (h : step.answer? ({ store := {} } : Sink FactList) = some (.error (.parse source e)))
    (hfacts : step.facts = [])
  | fault {f : Fault} (h : step.answer? ({ store := {} } : Sink FactList) = some (.error (.fault f)))
    (hfits : ¬ d.text.Fits)

theorem Harvest.Follows.settles {g : Harvest} {path : Text} {kind : TopLevelKind}
    {work : EStateM ExtractionFailure (Sink (Draft FactList)) LineTotals}
    (h : g.Follows work path kind) (hwrite : ∀ e, g.result ≠ .error (.write e)) {d : Document}
    (hsettled : d.text.Fits → g.IsSettled d.source) {step : SessionStep}
    (hanswer : step.answer? ({ store := {} } : Sink FactList) =
      some (resultOf (Sink.transaction .write work { store := {} })))
    (halone : step.alone = stateAfter (Sink.transaction .write work { store := {} })) :
    step.Settles d := by
  obtain ⟨hresult, hdropped⟩ := h.alone { store := {} }
  rw [hresult] at hanswer
  cases hg : g.result with
  | ok totals => exact .counted (hanswer.trans (congrArg some hg))
  | error e =>
    rw [hg] at hanswer
    cases e with
    | write e => exact absurd hg (hwrite e)
    | parse source e =>
      refine .rejected hanswer ?_
      rw [SessionStep.facts, halone, hdropped ⟨_, hg⟩]
    | fault f =>
      refine .fault hanswer fun hfits => ?_
      obtain ⟨totals, hok⟩ | ⟨e, hparse⟩ := hsettled hfits
      · cases hg.symm.trans hok
      · cases hg.symm.trans hparse

theorem InputFile.step_settles (options : ExtractionOptions) (input : InputFile) (d : Document) :
    (input.step options d).Settles d := by
  unfold InputFile.step
  split
  · exact (scriptFile_follows options d).settles ofScriptFile_result_ne_write
      (Harvest.ofScriptFile_isSettled · options) rfl rfl
  · exact (markdown_follows options d).settles (readBlocks_result_ne_write d.scan.blocks)
      (Harvest.ofMarkdown_isSettled · options) rfl rfl

/-- With this input a number leaves its range: in its document, or when its
counts join those of the inputs that have come to their ends. -/
inductive LeavesRange (options : ExtractionOptions) (t : FileTree) (n : Nat) (input : InputFile)
    (done : List InputEnd) : Prop
  | document {d : Document} (hd : t.document input = .ok d) (h : ¬ d.text.Fits)
  | counts {e : InputEnd} {n' : Nat} (he : ComesToEnd options t n input e n')
    (h : ¬ (LineTotals.total ((done ++ [e]).filterMap InputEnd.counts?)).InRange)

section Inputs

variable {σ : Type} [FactStore σ] {options : ExtractionOptions} {files : σ → FileTree}
  {input : InputFile} {s : RunState σ} {done : List InputEnd}

theorem extractInput_of_error {e : InputError} (h : (files s.sink.store).document input = .error e) :
    extractInput options files input s =
      .ok () { s with report := s.report.addFailed (String.ofList input.path ++ ": " ++ e.message) } := by
  rw [extractInput, h]

theorem extractInput_of_ok {d : Document} (h : (files s.sink.store).document input = .ok d)
    {answer : Except ExtractionFailure LineTotals}
    (hanswer : (input.step options d).answer? s.sink = some answer) :
    extractInput options files input s =
      s.after d.source ((input.step options d).run s.sink) answer := by
  rw [extractInput, h]
  unfold InputFile.step at hanswer ⊢
  split at hanswer <;> rename_i hpath
  · simp only [hpath, if_true, SessionStep.run]
    obtain rfl := Option.some.inj hanswer
    cases extractScriptFile options d s.sink with
    | ok counts sink => rfl
    | error e sink => cases e <;> rfl
  · simp only [hpath, Bool.false_eq_true, if_false, SessionStep.run]
    obtain rfl := Option.some.inj hanswer
    cases extractMarkdown options d s.sink with
    | ok counts sink => rfl
    | error e sink => cases e <;> rfl

/-- **One input** comes to its end, which joins the report and the store, or a
number leaves its range. -/
theorem extractInput_comesTo (hs : FactStore.TakesAll s.sink.store)
    (hreport : s.report = .of done) (options : ExtractionOptions) (files : σ → FileTree)
    (input : InputFile) :
    (∃ e s', extractInput options files input s = .ok () s' ∧
      ComesToEnd options (files s.sink.store) s.sink.lastLabel input e s'.sink.lastLabel ∧
      FactStore.writeAll e.facts s.sink.store = .ok () s'.sink.store ∧
      s'.report = .of (done ++ [e])) ∨
    ∃ f s', extractInput options files input s = .error (.fault f) s' ∧
      LeavesRange options (files s.sink.store) s.sink.lastLabel input done := by
  cases hdocument : (files s.sink.store).document input with
  | error e =>
    refine Or.inl ⟨_, _, extractInput_of_error hdocument, .unreadable hdocument, rfl, ?_⟩
    exact (congrArg (Report.addFailed · _) hreport).trans (Report.addFailed_of done _)
  | ok d =>
    have halone := standsAlone hs (input.step options d)
    have hrun {answer : Except ExtractionFailure LineTotals}
        (hanswer : (input.step options d).answer? ({ store := {} } : Sink FactList) = some answer) :
        extractInput options files input s = _ :=
      extractInput_of_ok hdocument (halone.answer.trans hanswer)
    obtain @⟨counts, hanswer⟩ | ⟨hanswer, hfacts⟩ | ⟨hanswer, hfits⟩ := input.step_settles options d
    · have hend : ComesToEnd options (files s.sink.store) s.sink.lastLabel input _ _ :=
        .extracted hdocument hanswer
      rw [hrun hanswer]
      rw [← halone.labels] at hend
      by_cases hrange : (LineTotals.total (done.filterMap InputEnd.counts? ++ [counts])).InRange
      · exact Or.inl ⟨_, _, RunState.after_ok hreport _ _ _ hrange, hend, halone.facts, rfl⟩
      · obtain ⟨f, s', hfault⟩ :=
          RunState.exists_of_after hreport d.source ((input.step options d).run s.sink) hrange
        refine Or.inr ⟨f, s', hfault, .counts hend ?_⟩
        rw [List.filterMap_append]
        exact hrange
    · have hend : ComesToEnd options (files s.sink.store) s.sink.lastLabel input _ _ :=
        .rejected hdocument hanswer
      have hstore := halone.facts
      rw [← halone.labels] at hend
      rw [hfacts] at hstore
      refine Or.inl ⟨_, _, hrun hanswer, hend, hstore, ?_⟩
      exact (congrArg (Report.addFailed · _) hreport).trans (Report.addFailed_of done _)
    · exact Or.inr ⟨_, _, hrun hanswer, .document hdocument hfits⟩

-- ---------------------------------------------------------------------------
-- All inputs
-- ---------------------------------------------------------------------------

/-- **The inputs** come to their ends one after the other, up to one with which
a number leaves its range. -/
theorem forM_extractInput (hs : FactStore.TakesAll s.sink.store) (hreport : s.report = .of done)
    (options : ExtractionOptions) (files : σ → FileTree) (inputs : List InputFile) :
    (∃ ends s', inputs.forM (extractInput options files) s = .ok () s' ∧
      Course options files s.sink.store s.sink.lastLabel inputs ends s'.sink.store
        s'.sink.lastLabel ∧
      s'.report = .of (done ++ ends)) ∨
    ∃ f s' before input after ends store n,
      inputs.forM (extractInput options files) s = .error (.fault f) s' ∧
      inputs = before ++ input :: after ∧
      Course options files s.sink.store s.sink.lastLabel before ends store n ∧
      LeavesRange options (files store) n input (done ++ ends) := by
  induction inputs generalizing s done with
  | nil => exact Or.inl ⟨[], s, rfl, .nil _ _, hreport.trans (by rw [List.append_nil])⟩
  | cons input inputs ih =>
    have hcons : (input :: inputs).forM (extractInput options files) =
        extractInput options files input >>= fun _ => inputs.forM (extractInput options files) := rfl
    rw [hcons]
    obtain ⟨e, s', hrun, hend, hwrite, hreport'⟩ | ⟨f, s', hrun, hrange⟩ :=
      extractInput_comesTo hs hreport options files input
    · rw [bind_of_ok hrun]
      obtain ⟨ends, s'', hrest, hcourse, hreport''⟩ |
          ⟨f, s'', before, input', after, ends, store, n, hrest, rfl, hcourse, hrange⟩ :=
        ih (hs.after hwrite) hreport'
      · refine Or.inl ⟨e :: ends, s'', hrest, .cons hend hwrite hcourse, ?_⟩
        rw [hreport'', List.append_assoc, List.singleton_append]
      · rw [List.append_assoc, List.singleton_append] at hrange
        exact Or.inr ⟨f, s'', input :: before, input', after, e :: ends, store, n, hrest, rfl,
          .cons hend hwrite hcourse, hrange⟩
    · rw [bind_of_error hrun]
      refine Or.inr ⟨f, s', [], input, inputs, [], _, _, rfl, rfl, .nil _ _, ?_⟩
      rw [List.append_nil]
      exact hrange

end Inputs

end FenceFacts
