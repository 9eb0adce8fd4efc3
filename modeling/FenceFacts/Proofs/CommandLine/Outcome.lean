import FenceFacts.Proofs.CommandLine.Course
import FenceFacts.Proofs.Files.Insertion

/-!
# FenceFacts — what a run accounts for

The report of a run accounts for every one of its inputs: it counts them, and
each has its line, in the output with its counts or among the errors.  The
last line of the output has the sums, and the process fails if one of the
inputs did.  Where paths lead nowhere there is no report at all.

It makes no difference for the report whether the facts are discarded or
written to a file, as long as that file is not an input.

## Results

* `extractPaths_accountsFor` — the report on the inputs.
* `endAlike_extractPaths`    — the same run on other stores.
* `runs_account_for_inputs`  — both, and the processes they belong to.
-/

namespace FenceFacts

-- ---------------------------------------------------------------------------
-- Reports
-- ---------------------------------------------------------------------------

/-- A report on inputs that have come to these ends. -/
structure Report.Accounts (r : Report) (inputs : List InputFile) (ends : List InputEnd) : Prop where
  documents : r.documents = inputs.length
  failed : r.failed = ends.countP InputEnd.isFailed
  totals : r.totals = .total (ends.filterMap InputEnd.counts?)
  /-- A line for each input that was extracted, and one for the total. -/
  output : r.output = String.join (ends.filterMap InputEnd.summary?) ++
    s!"total: {r.totals.describe} in {r.documents} document(s)\n"
  /-- A line for each other input. -/
  errors : r.errors = String.join (ends.filterMap InputEnd.message?)

theorem Report.accounts_close {inputs : List InputFile} {ends : List InputEnd}
    (h : ends.length = inputs.length) : (Report.of ends).close.Accounts inputs ends :=
  ⟨h, rfl, rfl, rfl, rfl⟩

theorem RunState.get_eq {σ : Type} (s : RunState σ) :
    (get : EStateM RunError (RunState σ) (RunState σ)) s = .ok s s := rfl

section Paths

variable {σ : Type} [FactStore σ]

/-- What a run over these inputs ends with, from this sink on.  They have come
to their ends, the report accounts for them, and the store has the facts of
all of them; or with one of them a number has left its range. -/
inductive AccountsFor (options : ExtractionOptions) (files : σ → FileTree) (start : Sink σ)
    (inputs : List InputFile) : EStateM.Result RunError (RunState σ) Unit → Prop
  | done {ends : List InputEnd} {s : RunState σ}
    (hcourse : Course options files start.store start.lastLabel inputs ends s.sink.store
      s.sink.lastLabel)
    (hreport : s.report.Accounts inputs ends)
    (hfacts : FactStore.writeAll (ends.flatMap InputEnd.facts) start.store = .ok () s.sink.store) :
    AccountsFor options files start inputs (.ok () s)
  | outOfRange {before after : List InputFile} {input : InputFile} {ends : List InputEnd}
    {store : σ} {n : Nat} {f : Fault} {s : RunState σ}
    (hinputs : inputs = before ++ input :: after)
    (hcourse : Course options files start.store start.lastLabel before ends store n)
    (hrange : LeavesRange options (files store) n input ends) :
    AccountsFor options files start inputs (.error (.fault f) s)

variable {options : ExtractionOptions} {files : σ → FileTree} {paths : List Text} {s : RunState σ}

theorem extractPaths_of_error {e : InputError}
    (h : (files s.sink.store).inputs paths = .error e) (options : ExtractionOptions) :
    extractPaths options files paths s = .error (.input e) s := by
  rw [extractPaths, bind_of_ok s.get_eq, h]
  rfl

theorem extractPaths_of_ok {inputs : List InputFile}
    (h : (files s.sink.store).inputs paths = .ok inputs) (options : ExtractionOptions) :
    extractPaths options files paths s = (do
      inputs.forM (extractInput options files)
      modify fun s => { s with report := s.report.close } : EStateM _ _ _) s := by
  rw [extractPaths, bind_of_ok s.get_eq, h]

/-- A run whose store takes every fact **accounts for its inputs**. -/
theorem extractPaths_accountsFor (start : Sink σ) (hstart : FactStore.TakesAll start.store)
    {inputs : List InputFile} (hinputs : (files start.store).inputs paths = .ok inputs)
    (options : ExtractionOptions) :
    AccountsFor options files start inputs (extractPaths options files paths { sink := start }) := by
  have hempty : ({ sink := start } : RunState σ).report = .of [] := rfl
  rw [extractPaths_of_ok (s := { sink := start }) hinputs options]
  obtain ⟨ends, s', hrun, hcourse, hreport⟩ |
      ⟨f, s', before, input, after, ends, store, n, hrun, hsplit, hcourse, hrange⟩ :=
    forM_extractInput (s := { sink := start }) hstart hempty options files inputs
  · rw [bind_of_ok hrun]
    refine .done hcourse ?_ hcourse.writeAll
    show s'.report.close.Accounts inputs ends
    rw [hreport]
    exact Report.accounts_close hcourse.length_eq
  · rw [bind_of_error hrun]
    exact .outOfRange hsplit hcourse hrange

end Paths

-- ---------------------------------------------------------------------------
-- The same run on another store
-- ---------------------------------------------------------------------------

section Alike

variable {σ τ : Type} [FactStore σ] [FactStore τ] {R : σ → τ → Prop}
  {options : ExtractionOptions} {files : σ → FileTree} {files' : τ → FileTree}

/-- Runs that have come to the same report, on stores that correspond. -/
structure RunState.Alike (R : σ → τ → Prop) (s : RunState σ) (s' : RunState τ) : Prop where
  sinks : Ahead 0 R s.sink s'.sink
  reports : s'.report = s.report

theorem InputFile.exists_answer (options : ExtractionOptions) (input : InputFile) (d : Document)
    (s : Sink σ) : ∃ answer, (input.step options d).answer? s = some answer := by
  unfold InputFile.step
  split <;> exact ⟨_, rfl⟩

omit [FactStore σ] [FactStore τ] in
theorem RunState.Alike.after {s : RunState σ} {s' : RunState τ} (h : s.Alike R s') {sink : Sink σ}
    {sink' : Sink τ} (hsinks : Ahead 0 R sink sink') (source : Source)
    (answer : Except ExtractionFailure LineTotals) :
    EndAlike (RunState.Alike R) Eq (s.after source sink answer) (s'.after source sink' answer) := by
  have hsame (report : Report) : RunState.Alike R ⟨sink, report⟩ ⟨sink', report⟩ := ⟨hsinks, rfl⟩
  unfold RunState.after
  rw [h.reports]
  cases answer with
  | ok counts =>
    dsimp only
    cases s.report.addExtracted source counts with
    | ok report => exact .ok rfl (hsame _)
    | error f => exact .error _ (hsame _)
  | error e =>
    cases e with
    | parse source e => exact .ok rfl (hsame _)
    | write e => exact .error _ (hsame _)
    | fault f => exact .error _ (hsame _)

/-- An input with the same document is the same for both. -/
theorem simulates_extractInput (hstep : KeepsInStep 0 R) {input : InputFile}
    (hdocument : ∀ store store', R store store' →
      (files' store').document input = (files store).document input) :
    Simulates (RunState.Alike R) Eq (extractInput options files input)
      (extractInput options files' input) := by
  intro s s' hs
  have hsame := hdocument _ _ hs.sinks.stores
  cases hd : (files s.sink.store).document input with
  | error e =>
    rw [extractInput_of_error hd, extractInput_of_error (hsame.trans hd), hs.reports]
    exact .ok rfl ⟨hs.sinks, rfl⟩
  | ok d =>
    obtain ⟨hsinks, hanswers⟩ := hstep.run hs.sinks (input.step options d)
    obtain ⟨answer, hanswer⟩ := input.exists_answer options d s.sink
    rw [extractInput_of_ok hd hanswer, extractInput_of_ok (hsame.trans hd) (hanswers.trans hanswer)]
    exact hs.after hsinks d.source answer

/-- A run ends **the same way on stores that keep in step**, if the inputs are
the same and so are their documents. -/
theorem endAlike_extractPaths (hstep : KeepsInStep 0 R) {paths : List Text} {s : RunState σ}
    {s' : RunState τ} (hs : s.Alike R s')
    (hinputs : (files' s'.sink.store).inputs paths = (files s.sink.store).inputs paths)
    (hdocuments : ∀ inputs, (files s.sink.store).inputs paths = .ok inputs → ∀ input ∈ inputs,
      ∀ store store', R store store' →
        (files' store').document input = (files store).document input) :
    EndAlike (RunState.Alike R) Eq (extractPaths options files paths s)
      (extractPaths options files' paths s') := by
  cases h : (files s.sink.store).inputs paths with
  | error e =>
    rw [extractPaths_of_error h options, extractPaths_of_error (hinputs.trans h) options]
    exact .error _ hs
  | ok inputs =>
    rw [extractPaths_of_ok h options, extractPaths_of_ok (hinputs.trans h) options]
    have hforM : Simulates (RunState.Alike R) Eq (inputs.forM (extractInput options files))
        (inputs.forM (extractInput options files')) :=
      Simulates.forM_of_mem fun input hinput =>
        simulates_extractInput hstep (hdocuments inputs h input hinput)
    refine hforM.bind_same (fun _ => ?_) s s' hs
    exact fun t t' ht => .ok rfl ⟨ht.sinks, congrArg Report.close ht.reports⟩

end Alike

-- ---------------------------------------------------------------------------
-- Facts that are discarded or in a file
-- ---------------------------------------------------------------------------

theorem FactStore.takesAll_discard (store : Discard) : TakesAll store :=
  takesAll_of_step (P := fun _ => True) (fun _ s _ => ⟨s, rfl, trivial⟩) trivial

namespace FactFile

/-- The file with a fact more. -/
def withFact (file : FactFile) (f : Fact) : FactFile :=
  f.linePieces.foldl (fun file piece => file.put piece.encode.toArray) file

theorem write_eq (f : Fact) (file : FactFile) : FactStore.write f file = .ok () (file.withFact f) :=
  rfl

theorem takesAll (file : FactFile) : FactStore.TakesAll file :=
  FactStore.takesAll_of_step (P := fun _ => True) (fun f s _ => ⟨s.withFact f, write_eq f s, trivial⟩)
    trivial

theorem bytes_foldl_put (pieces : List Text) (file : FactFile) :
    (pieces.foldl (fun file piece => file.put piece.encode.toArray) file).bytes.toList =
      file.bytes.toList ++ Text.encode pieces.flatten := by
  induction pieces generalizing file with
  | nil => exact (List.append_nil _).symm
  | cons piece pieces ih =>
    rw [List.foldl_cons, ih, bytes_put, Array.toList_append, List.append_assoc, List.flatten_cons]
    simp only [Text.encode, List.flatMap_append]

/-- The bytes of a file are **the lines of its facts**, whether they have
reached it or wait. -/
theorem bytes_of_writeAll {facts : List Fact} {file file' : FactFile}
    (h : FactStore.writeAll facts file = .ok () file') :
    file'.bytes.toList = file.bytes.toList ++ lineBytes facts := by
  induction facts generalizing file with
  | nil =>
    injection h with _ hsame
    rw [hsame]
    exact (List.append_nil _).symm
  | cons f facts ih =>
    rw [FactStore.writeAll_cons, write_eq] at h
    rw [ih h, lineBytes, lineBytes, List.flatMap_cons, ← List.append_assoc]
    exact congrArg (· ++ _) (bytes_foldl_put f.linePieces file)

end FactFile

/-- Both take every fact, so they end the same runs. -/
theorem keepsInStep_discard_file : KeepsInStep 0 fun (_ : Discard) (_ : FactFile) => True :=
  fun _ _ _ _ => .ok rfl trivial

-- ---------------------------------------------------------------------------
-- Processes
-- ---------------------------------------------------------------------------

/-- What is seen of a run with this result: its report, and in the exit code
whether one of its inputs failed. -/
structure Outcome.Shows {σ : Type} (o : Outcome)
    (result : EStateM.Result RunError (RunState σ) Unit) : Prop where
  of_ok : ∀ s, result = .ok () s → o.output = s.report.output ∧ o.errors = s.report.errors ∧
    (o.exitCode = 1 ↔ 0 < s.report.failed) ∧ (o.exitCode = 0 ↔ s.report.failed = 0)
  of_error : ∀ e s, result = .error e s → o.exitCode = 1

theorem Outcome.shows_ofResult {σ : Type} {result : EStateM.Result RunError (RunState σ) Unit}
    {o : Outcome} (ho : o = { (ofResult result).1 with written := o.written }) :
    o.Shows result := by
  rw [ho]
  cases result with
  | ok u s =>
    refine ⟨?_, nofun⟩
    rintro _ ⟨⟩
    refine ⟨rfl, rfl, ?_⟩
    show (_ = 1 ↔ _) ∧ (_ = 0 ↔ _)
    dsimp only [ofResult, ofReport]
    split <;> omega
  | error e s =>
    refine ⟨nofun, ?_⟩
    intros
    rfl

theorem Outcome.store_ofResult {σ : Type} (result : EStateM.Result RunError (RunState σ) Unit) :
    (ofResult result).2 = (stateAfter result).sink.store := by
  cases result <;> rfl

/-- What a process tells of the inputs that its paths stand for, in a run with
this result on this store. -/
structure Outcome.Tells {σ : Type} [FactStore σ] (o : Outcome) (options : ExtractionOptions)
    (files : σ → FileTree) (paths : List Text) (start : σ)
    (result : EStateM.Result RunError (RunState σ) Unit) : Prop where
  of_inputs : ∀ inputs, (files start).inputs paths = .ok inputs →
    AccountsFor options files { store := start } inputs result ∧ o.Shows result
  of_error : ∀ e, (files start).inputs paths = .error e →
    o.output = "" ∧ o.exitCode = 1 ∧ (stateAfter result).sink.store = start

theorem Outcome.tells_ofResult {σ : Type} [FactStore σ] {start : σ}
    (hstart : FactStore.TakesAll start) {options : ExtractionOptions} {files : σ → FileTree}
    {paths : List Text} {result : EStateM.Result RunError (RunState σ) Unit}
    (hrun : extractPaths options files paths { sink := { store := start } } = result)
    {o : Outcome} (ho : o = { (ofResult result).1 with written := o.written }) :
    o.Tells options files paths start result := by
  refine ⟨fun inputs hinputs => ⟨?_, shows_ofResult ho⟩, fun e he => ?_⟩
  · have haccounts : AccountsFor options files { store := start } inputs
        (extractPaths options files paths { sink := { store := start } }) :=
      extractPaths_accountsFor { store := start } hstart hinputs options
    rw [hrun] at haccounts
    exact haccounts
  · have hresult := (extractPaths_of_error (s := { sink := { store := start } }) he options).symm.trans
      hrun
    subst hresult
    rw [ho]
    exact ⟨rfl, rfl, rfl⟩

namespace Arguments

variable {a : Arguments} {s : Settings} {t : FileTree} {path : Text} {place : List Text}

/-- A run that discards its facts. -/
def discarding (options : ExtractionOptions) (t : FileTree) (paths : List Text) :
    EStateM.Result RunError (RunState Discard) Unit :=
  extractPaths options (fun _ => t) paths { sink := { store := {} } }

/-- A run that writes its facts to a file. -/
def writing (options : ExtractionOptions) (t : FileTree) (place : List Text) (paths : List Text) :
    EStateM.Result RunError (RunState FactFile) Unit :=
  extractPaths options (fun file => t.insertAt place (.file file.stored.toList)) paths
    { sink := { store := {} } }

theorem runWith_of_none (h : a.facts.or s.factsPath = none) (t : FileTree) :
    a.runWith s t = ((Outcome.ofResult (discarding (a.options s) t a.paths)).1, t) := by
  rw [runWith, h]
  rfl

theorem runWith_of_some (h : a.facts.or s.factsPath = some path)
    (hplace : t.filePlace? path = some place) :
    a.runWith s t =
      ({ (Outcome.ofResult (writing (a.options s) t place a.paths)).1 with written := some path },
        t.insertAt place
          (.file (stateAfter (writing (a.options s) t place a.paths)).sink.store.bytes.toList)) := by
  rw [runWith, h]
  dsimp only
  rw [hplace, ← Outcome.store_ofResult]
  rfl

/-- What a file holds that is no input **makes no difference** to the run. -/
theorem writing_eq_discarding (hplace : t.filePlace? path = some place) {paths : List Text}
    (hapart : (t.insertAt place (.file [])).Apart place paths) (options : ExtractionOptions) :
    (stateAfter (writing options t place paths)).report =
      (stateAfter (discarding options t paths)).report ∧
    (Outcome.ofResult (writing options t place paths)).1 =
      (Outcome.ofResult (discarding options t paths)).1 := by
  have hholds := FileTree.canHold_of_filePlace? hplace
  have hinputs := FileTree.inputs_insertAt hholds hapart
  have hstart : RunState.Alike (fun (_ : Discard) (_ : FactFile) => True)
      { sink := { store := {} } } { sink := { store := {} } } := ⟨⟨rfl, trivial⟩, rfl⟩
  have hends : EndAlike _ Eq (discarding options t paths) (writing options t place paths) :=
    endAlike_extractPaths keepsInStep_discard_file hstart hinputs fun inputs h input hinput _ file _ =>
      FileTree.document_insertAt hholds file.stored.toList
        (hapart.not_isAt (hinputs.trans h) hinput)
  generalize discarding options t paths = r, writing options t place paths = r' at hends ⊢
  cases hends with
  | ok _ hs => exact ⟨hs.reports, congrArg Outcome.ofReport hs.reports⟩
  | error e hs => exact ⟨hs.reports, congrArg (Outcome.ofError · e) hs.reports⟩

end Arguments

/-- A run **accounts for its inputs** on any store that takes every fact: how
many they are, how many of them failed, what the others count together, one
line for each of them and the facts of all.  If its paths lead nowhere it ends
before it has done anything.

So does the process of a run, which prints the report and whose exit code
tells whether an input failed.  If facts are written the file has a line for
each, and if it is no input the process prints what it would print without. -/
theorem runs_account_for_inputs :
    (∀ (σ : Type) [FactStore σ] (options : ExtractionOptions) (files : σ → FileTree)
      (paths : List Text) (start : Sink σ), FactStore.TakesAll start.store →
      (∀ inputs, (files start.store).inputs paths = .ok inputs →
        AccountsFor options files start inputs
          (extractPaths options files paths { sink := start })) ∧
      ∀ e, (files start.store).inputs paths = .error e →
        extractPaths options files paths { sink := start } = .error (.input e) { sink := start }) ∧
    ∀ (a : Arguments) (s : Settings) (t : FileTree),
      let discarded := Arguments.discarding (a.options s) t a.paths
      (a.facts.or s.factsPath = none →
        (a.runWith s t).1.Tells (a.options s) (fun _ => t) a.paths {} discarded ∧
        (a.runWith s t).2 = t) ∧
      ∀ path place, a.facts.or s.factsPath = some path → t.filePlace? path = some place →
        let written := Arguments.writing (a.options s) t place a.paths
        let file := (stateAfter written).sink.store
        (a.runWith s t).1.Tells (a.options s)
          (fun file => t.insertAt place (.file file.stored.toList)) a.paths {} written ∧
        (a.runWith s t).2 = t.insertAt place (.file file.bytes.toList) ∧
        (∀ facts, FactStore.writeAll facts ({} : FactFile) = .ok () file →
          file.bytes.toList = facts.flatMap (·.jsonLine.encode)) ∧
        ((t.insertAt place (.file [])).Apart place a.paths →
          (stateAfter written).report = (stateAfter discarded).report ∧
          (a.runWith s t).1 =
            { ({ a with facts := none }.runWith { s with factsPath := none } t).1 with
              written := some path }) := by
  refine ⟨fun σ _ options files paths start hstart => ⟨fun inputs hinputs => ?_, fun e he => ?_⟩,
    fun a s t => ⟨fun hnone => ?_, fun path place hsome hplace => ⟨?_, ?_, ?_, fun hapart => ?_⟩⟩⟩
  · exact extractPaths_accountsFor start hstart hinputs options
  · exact extractPaths_of_error (s := { sink := start }) he options
  · rw [Arguments.runWith_of_none hnone]
    exact ⟨Outcome.tells_ofResult (FactStore.takesAll_discard {}) rfl rfl, rfl⟩
  · rw [Arguments.runWith_of_some hsome hplace]
    exact Outcome.tells_ofResult (FactFile.takesAll {}) rfl rfl
  · rw [Arguments.runWith_of_some hsome hplace]
  · exact fun facts => FactFile.bytes_of_writeAll
  · obtain ⟨hreports, houtcomes⟩ := Arguments.writing_eq_discarding hplace hapart (a.options s)
    refine ⟨hreports, ?_⟩
    rw [Arguments.runWith_of_some hsome hplace, Arguments.runWith_of_none rfl, houtcomes]
    rfl

/-- A document with a script, and a script file that is rejected. -/
def oneRejected : FileTree where
  root := .directory (.cons ['a', '.', 'm', 'd']
    (.file (Text.encode
      ['\x60', '\x60', '\x60', 'j', 's', '\n', 'x', '\n', '\x60', '\x60', '\x60']))
    (.cons ['b', '.', 'j', 's'] (.file (Text.encode ['('])) .nil))

/-- Both are inputs, and the facts go to a file beside them. -/
def extractBoth : Arguments where
  paths := [['a', '.', 'm', 'd'], ['b', '.', 'j', 's']]
  facts := some ['o']

/-- The process fails and tells of both inputs. -/
theorem runs_account_for_inputs_oneRejected :
    oneRejected.filePlace? ['o'] = some [['o']] ∧
    (oneRejected.insertAt [['o']] (.file [])).Apart [['o']] extractBoth.paths ∧
    (∃ ends s, Arguments.writing {} oneRejected [['o']] extractBoth.paths = .ok () s ∧
      s.report.Accounts [⟨['a', '.', 'm', 'd'], none⟩, ⟨['b', '.', 'j', 's'], none⟩] ends ∧
      s.report.failed = 1) ∧
    (extractBoth.runWith {} oneRejected).1 = {
      exitCode := 1
      output := "a.md: 1 lines of code, 0 lines of comments\n" ++
        "total: 1 lines of code, 0 lines of comments in 2 document(s)\n"
      errors := "b.js:1:2: Unexpected end of input\n"
      written := some ['o'] } := by
  have hplace : oneRejected.filePlace? ['o'] = some [['o']] := by decide +kernel
  obtain ⟨-, hprocesses⟩ := runs_account_for_inputs
  obtain ⟨-, hwriting⟩ := hprocesses extractBoth {} oneRejected
  obtain ⟨htells, -, -, hsame⟩ := hwriting ['o'] [['o']] rfl hplace
  have hapart : (oneRejected.insertAt [['o']] (.file [])).Apart [['o']] extractBoth.paths :=
    FileTree.apart_of_files (by decide +kernel)
  refine ⟨hplace, hapart, ?_, ?_⟩
  · obtain ⟨haccounts, -⟩ := htells.of_inputs
      [⟨['a', '.', 'm', 'd'], none⟩, ⟨['b', '.', 'j', 's'], none⟩] (by decide +kernel)
    have hok : resultOf (Arguments.writing {} oneRejected [['o']] extractBoth.paths) = .ok () := by
      decide +kernel
    have hfailed : (stateAfter (Arguments.writing {} oneRejected [['o']]
        extractBoth.paths)).report.failed = 1 := by
      decide +kernel
    change AccountsFor _ _ _ _ (Arguments.writing {} oneRejected [['o']] extractBoth.paths)
      at haccounts
    generalize Arguments.writing {} oneRejected [['o']] extractBoth.paths = result
      at haccounts hok hfailed ⊢
    cases haccounts with
    | done _ hreport _ => exact ⟨_, _, rfl, hreport, hfailed⟩
    | outOfRange => cases hok
  · rw [(hsame hapart).2]
    decide +kernel

end FenceFacts
