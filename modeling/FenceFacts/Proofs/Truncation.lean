import FenceFacts.Proofs.JsonLines
import FenceFacts.Proofs.Session

/-!
# FenceFacts — devices that run out of room

The same session is run on two devices, one that takes everything and one that
takes a number of bytes and no more.  The one with a limit has the first bytes
of the other, wherever the limit cuts: within a fact, before the line feed of a
line, or between documents.  A document that is refused for want of room spends
the same labels as one that is written, so the two sessions stay in step, and
apart from the documents that do not fit they have the same answers.

## Results

* `Truncates.taking`     — one list of facts on both devices.
* `InStep.run`           — one step on both sinks.
* `limited_device_truncates` — whole sessions.
-/

namespace FenceFacts

-- ---------------------------------------------------------------------------
-- Two devices
-- ---------------------------------------------------------------------------

/-- The device `s` has room for `room` bytes and has those that come first on
the device `u`, which has no limit.  Its whole lines are counted. -/
structure Truncates (room : Nat) (s u : JsonLines) : Prop where
  limited : s.room = some room
  unlimited : u.room = none
  accepted : s.accepted.toList = u.accepted.toList.take room
  counts : s.written = s.accepted.toList.count lineFeed

namespace Truncates

variable {room : Nat} {s u : JsonLines} (h : Truncates room s u)
include h

theorem size_eq : s.accepted.size = min room u.accepted.size := by
  have hlength := congrArg List.length h.accepted
  rwa [List.length_take, Array.length_toList, Array.length_toList] at hlength

theorem fitting_unlimited (bytes : List UInt8) : u.fitting bytes = bytes := by
  rw [JsonLines.fitting, h.unlimited]

theorem fitting_limited (bytes : List UInt8) :
    s.fitting bytes = bytes.take (room - u.accepted.size) := by
  have hroom : room - s.accepted.size = room - u.accepted.size := by
    rw [h.size_eq]
    omega
  rw [JsonLines.fitting, h.limited, ← hroom]

/-- Both devices are handed the same bytes. -/
theorem taking (bytes : List UInt8) : Truncates room (s.taking bytes) (u.taking bytes) := by
  refine ⟨h.limited, h.unlimited, ?_, ?_⟩
  · have haccepted := h.accepted
    simp only [JsonLines.taking, h.fitting_unlimited, h.fitting_limited, Array.toList_append,
      haccepted, List.take_append, Array.length_toList]
  · have hcounts := h.counts
    simp only [JsonLines.taking, Array.toList_append, List.count_append, hcounts]

/-- The bytes do not fit if they end beyond the room. -/
theorem short_iff {bytes : List UInt8} (hbytes : bytes ≠ []) :
    (s.fitting bytes).length < bytes.length ↔ room < (u.taking bytes).accepted.size := by
  have hlength := List.length_pos_iff.mpr hbytes
  have hsize : (u.taking bytes).accepted.size = u.accepted.size + bytes.length := by
    simp [JsonLines.taking, h.fitting_unlimited]
  rw [hsize, h.fitting_limited, List.length_take]
  omega

end Truncates

theorem lineBytes_ne_nil {facts : List Fact} (h : facts ≠ []) : lineBytes facts ≠ [] := by
  obtain ⟨f, fs, rfl⟩ := List.exists_cons_of_ne_nil h
  obtain ⟨body, hbytes, -⟩ := exists_jsonLine_bytes f
  rw [lineBytes, List.flatMap_cons, hbytes]
  simp

-- ---------------------------------------------------------------------------
-- Documents
-- ---------------------------------------------------------------------------

/-- The sinks have spent the same labels, one in front of each device. -/
structure InStep (room : Nat) (s u : Sink JsonLines) : Prop where
  stores : Truncates room s.store u.store
  labels : s.lastLabel = u.lastLabel

/-- How something ends on the limited device and how on the other one, which
has `size` bytes then: the same way, unless the bytes end beyond the room and
fail to be written. -/
structure SameUnlessFull (room size : Nat)
    (limited unlimited : Option (Except ExtractionFailure LineTotals)) : Prop where
  full_iff : (∃ e, limited = some (.error (.write e))) ↔
    (∃ totals, unlimited = some (.ok totals)) ∧ room < size
  same : (∀ e, limited ≠ some (.error (.write e))) → limited = unlimited

/-- On both devices, and still in step. -/
def EndsInStep (room : Nat) (extraction : EStateM ExtractionFailure (Sink JsonLines) LineTotals)
    (s u : Sink JsonLines) : Prop :=
  InStep room (stateAfter (extraction s)) (stateAfter (extraction u)) ∧
    SameUnlessFull room (stateAfter (extraction u)).store.accepted.size
      (some (resultOf (extraction s))) (some (resultOf (extraction u)))

section Documents

variable {room : Nat} {s u : Sink JsonLines}
  {extraction : EStateM ExtractionFailure (Sink JsonLines) LineTotals} {last : Nat}

/-- Facts reach both devices, as far as they fit. -/
theorem InStep.delivers (h : InStep room s u) {totals : LineTotals} {facts : List Fact}
    (hfacts : facts ≠ []) (hs : Delivers extraction s totals facts last)
    (hu : Delivers extraction u totals facts last) : EndsInStep room extraction s u := by
  obtain ⟨notes, hs⟩ := hs
  obtain ⟨notes', hu⟩ := hu
  have hfits : ¬ (u.store.fitting (lineBytes facts)).length < (lineBytes facts).length := by
    rw [h.stores.fitting_unlimited]
    exact Nat.lt_irrefl _
  have hstores := h.stores.taking (lineBytes facts)
  have hshort := h.stores.short_iff (lineBytes_ne_nil hfacts)
  rw [JsonLines.writeAll_eq, if_neg hfits] at hu
  rw [EndsInStep, hu]
  by_cases hwant : (s.store.fitting (lineBytes facts)).length < (lineBytes facts).length
  · rw [JsonLines.writeAll_eq, if_pos hwant] at hs
    rw [hs]
    exact ⟨⟨hstores, rfl⟩, iff_of_true ⟨_, rfl⟩ ⟨⟨_, rfl⟩, hshort.mp hwant⟩,
      fun hnot => absurd rfl (hnot .deviceFull)⟩
  · rw [JsonLines.writeAll_eq, if_neg hwant] at hs
    rw [hs]
    refine ⟨⟨hstores, rfl⟩, iff_of_false ?_ fun h => hwant (hshort.mpr h.2), fun _ => rfl⟩
    rintro ⟨e, he⟩
    cases he

/-- A document that is refused reaches neither device. -/
theorem InStep.refuses (h : InStep room s u) {e : ExtractionFailure} (he : ∀ e', e ≠ .write e')
    (hs : Refuses extraction s e last) (hu : Refuses extraction u e last) :
    EndsInStep room extraction s u := by
  obtain ⟨notes, hs⟩ := hs
  obtain ⟨notes', hu⟩ := hu
  rw [EndsInStep, hs, hu]
  refine ⟨⟨h.stores, rfl⟩, ⟨iff_of_false ?_ ?_, fun _ => rfl⟩⟩
  · rintro ⟨e', he'⟩
    exact he e' (Except.error.inj (Option.some.inj he'))
  · rintro ⟨⟨totals, htotals⟩, -⟩
    cases htotals

theorem Harvest.Follows.inStep {g : Harvest} {path : Text} {kind : TopLevelKind}
    {work : EStateM ExtractionFailure (Sink (Draft JsonLines)) LineTotals}
    (hfollows : g.Follows work path kind) (hresult : ∀ e, g.result ≠ .error (.write e))
    (h : InStep room s u) : EndsInStep room (Sink.transaction .write work) s u := by
  cases hg : g.result with
  | ok totals =>
    have hu := hfollows.delivers hg u
    rw [← h.labels] at hu
    exact h.delivers (List.cons_ne_nil _ _) (hfollows.delivers hg s) hu
  | error e =>
    obtain ⟨last, hrefuses⟩ := hfollows.exists_refuses_from hg s.lastLabel
    exact h.refuses (fun e' he' => hresult e' (he' ▸ hg)) (hrefuses s rfl)
      (hrefuses u h.labels.symm)

end Documents

-- ---------------------------------------------------------------------------
-- Harvests
-- ---------------------------------------------------------------------------

/-- Reading does not write, so it cannot fail to. -/
theorem readIn_ne_write {options : ExtractionOptions} {source : Source} {text : Text}
    {t : Translator} (e : WriteError) : readIn source options text t ≠ .error (.write e) := by
  intro h
  rw [readIn, readScript] at h
  cases ha : analyze options.toAnalysisOptions text with
  | error err =>
    rw [ha] at h
    simp only [Except.mapError, SnippetFailure.inDocument] at h
    cases he : (err.located (.ofText text)).translated t <;> rw [he] at h <;> cases h
  | ok a =>
    rw [ha] at h
    dsimp only at h
    cases hr : (Reading.ofScript options text a).translated t <;> rw [hr] at h <;> cases h

theorem readBlock_ne_write {options : ExtractionOptions} {d : Document} {b : Block}
    (e : WriteError) : readBlock options d b ≠ .error (.write e) := by
  unfold readBlock
  split
  · intro h
    cases h
  · exact readIn_ne_write e

theorem readBlocks_result_ne_write {options : ExtractionOptions} {d : Document}
    {totals : LineTotals} (bs : List Block) (e : WriteError) :
    (readBlocks options d totals bs).result ≠ .error (.write e) := by
  fun_induction readBlocks options d totals bs with
  | case1 => exact fun h => by cases h
  | case2 totals b bs hblank ih => exact ih
  | case3 totals b bs hblank e' hread =>
    exact fun h => readBlock_ne_write e (hread.trans (congrArg Except.error (Except.error.inj h)))
  | case4 => exact fun h => by cases h
  | case5 totals b bs hblank r hread totals' hadd rest ih => exact ih

theorem ofScriptFile_result_ne_write {options : ExtractionOptions} {d : Document}
    (e : WriteError) : (Harvest.ofScriptFile options d).result ≠ .error (.write e) :=
  fun h => readIn_ne_write e (Harvest.eq_of_single_error h)

-- ---------------------------------------------------------------------------
-- Sessions
-- ---------------------------------------------------------------------------

/-- How a step ends; a label is just taken. -/
def SessionStep.answer? {σ : Type} [FactStore σ] (s : Sink σ) :
    SessionStep → Option (Except ExtractionFailure LineTotals)
  | markdown options d => some (resultOf (extractMarkdown options d s))
  | script options d => some (resultOf (extractScriptFile options d s))
  | label => none

section Sessions

variable {room : Nat} {s u : Sink JsonLines}

/-- **One step** keeps the sinks in step. -/
theorem InStep.run (h : InStep room s u) (step : SessionStep) :
    InStep room (step.run s) (step.run u) ∧
      SameUnlessFull room (step.run u).store.accepted.size (step.answer? s) (step.answer? u) := by
  cases step with
  | markdown options d =>
    exact (markdown_follows options d).inStep (readBlocks_result_ne_write d.scan.blocks) h
  | script options d =>
    exact (scriptFile_follows options d).inStep ofScriptFile_result_ne_write h
  | label =>
    refine ⟨⟨h.stores, congrArg (· + 1) h.labels⟩, iff_of_false ?_ ?_, fun _ => rfl⟩
    · rintro ⟨e, he⟩
      cases he
    · rintro ⟨⟨totals, htotals⟩, -⟩
      cases htotals

theorem InStep.runSession (h : InStep room s u) (steps : List SessionStep) :
    InStep room (runSession steps s) (runSession steps u) := by
  induction steps generalizing s u with
  | nil => exact h
  | cons step steps ih => exact ih (h.run step).1

end Sessions

/-- An empty device behind a sink. -/
def emptyDevice (room : Option Nat) : Sink JsonLines := { store := { room } }

theorem inStep_emptyDevice (room : Nat) :
    InStep room (emptyDevice (some room)) (emptyDevice none) :=
  ⟨⟨rfl, rfl, List.take_nil.symm, rfl⟩, rfl⟩

/-- A device that runs out of room **only truncates**: it has the first bytes
of what the session writes without a limit, its line feeds are counted, and
the documents that fail to be written are those that an unlimited device takes
and whose bytes end beyond the room.  All other steps end the same way. -/
theorem limited_device_truncates (room : Nat) (steps : List SessionStep) :
    let limited := (runSession steps (emptyDevice (some room))).store
    let unlimited := (runSession steps (emptyDevice none)).store
    limited.accepted.toList =
      unlimited.accepted.toList.take (min room unlimited.accepted.size) ∧
    limited.written = limited.accepted.toList.count lineFeed ∧
    ∀ before step after, steps = before ++ step :: after →
      let s := runSession before (emptyDevice (some room))
      let u := runSession before (emptyDevice none)
      ((∃ e, step.answer? s = some (.error (.write e))) ↔
        (∃ totals, step.answer? u = some (.ok totals)) ∧
          room < (step.run u).store.accepted.size) ∧
      ((∀ e, step.answer? s ≠ some (.error (.write e))) → step.answer? s = step.answer? u) := by
  have hstart := inStep_emptyDevice room
  have hstores := (hstart.runSession steps).stores
  refine ⟨?_, hstores.counts, ?_⟩
  · rw [hstores.accepted, ← Array.length_toList, ← List.take_eq_take_min]
  · intro before step after _
    have hsame := ((hstart.runSession before).run step).2
    exact ⟨hsame.full_iff, hsame.same⟩

/-- A script file that is rejected. -/
def unclosedFile : SessionStep := .script {} ⟨⟨['a']⟩, ['(']⟩

def emptyFile : SessionStep := .script { extractLines := false } ⟨⟨['b']⟩, []⟩

/-- With room for forty bytes the fact for the file is whole, and the one for
its top level is cut. -/
theorem limited_device_truncates_cutFact :
    [unclosedFile, emptyFile] = [unclosedFile] ++ emptyFile :: [] ∧
    (runSession [unclosedFile, emptyFile] (emptyDevice none)).store.accepted.size = 191 ∧
    (runSession [unclosedFile, emptyFile] (emptyDevice (some 40))).store.accepted.toList =
      (runSession [unclosedFile, emptyFile] (emptyDevice none)).store.accepted.toList.take 40 ∧
    (runSession [unclosedFile, emptyFile] (emptyDevice (some 40))).store.written = 1 ∧
    ∃ e, emptyFile.answer? (runSession [unclosedFile] (emptyDevice (some 40))) =
      some (.error (.write e)) := by
  have hsize : (runSession [unclosedFile, emptyFile] (emptyDevice none)).store.accepted.size =
      191 := by
    decide +kernel
  have hanswer : emptyFile.answer? (runSession [unclosedFile] (emptyDevice none)) =
      some (.ok ⟨0, 0⟩) := by
    decide +kernel
  obtain ⟨haccepted, -, hsteps⟩ := limited_device_truncates 40 [unclosedFile, emptyFile]
  obtain ⟨hfull, -⟩ := hsteps [unclosedFile] emptyFile [] rfl
  have hbeyond :
      40 < (emptyFile.run (runSession [unclosedFile] (emptyDevice none))).store.accepted.size :=
    hsize.symm ▸ (by decide : 40 < 191)
  rw [hsize] at haccepted
  exact ⟨rfl, hsize, haccepted, by decide +kernel, hfull.mpr ⟨⟨_, hanswer⟩, hbeyond⟩⟩

end FenceFacts
