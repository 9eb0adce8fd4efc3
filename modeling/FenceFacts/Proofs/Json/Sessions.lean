import FenceFacts.Proofs.Independence
import FenceFacts.Proofs.Json.Facts
import FenceFacts.Proofs.Utf8

/-!
# FenceFacts — a session on a device, read back

The same session is run into a list of facts and onto a device that takes
everything.  Both hand out the same labels and let every step end the same way,
and the device has the lines of the facts in the list, in order.  Its bytes are
a text again, and the facts are read back from it, so nothing about them is
lost on the way.

## Results

* `keepsInStep_hasLines`         — one fact, in the list and on the device.
* `device_agrees_and_reads_back` — sessions, and what their text tells.
-/

namespace FenceFacts

-- ---------------------------------------------------------------------------
-- A list and a device
-- ---------------------------------------------------------------------------

/-- The device has the lines of the facts in the list, and has counted them. -/
structure HasLines (l : FactList) (device : JsonLines) : Prop where
  unlimited : device.room = none
  accepted : device.accepted.toList = lineBytes l.facts
  written : device.written = l.facts.length

theorem keepsInStep_hasLines : KeepsInStep 0 HasLines := by
  intro f l device h
  have hfits (bytes : List UInt8) : device.fitting bytes = bytes := by
    rw [JsonLines.fitting, h.unlimited]
  rw [Fact.shifted_zero, JsonLines.write_of_fits (hfits _)]
  refine .ok rfl ⟨h.unlimited, ?_, ?_⟩
  · show (device.accepted ++ (device.fitting f.jsonLine.encode).toArray).toList =
      lineBytes (l.facts ++ [f])
    rw [hfits, Array.toList_append, h.accepted, lineBytes, lineBytes, List.flatMap_append,
      List.flatMap_singleton]
  · show device.written + (device.fitting f.jsonLine.encode).count lineFeed =
      (l.facts ++ [f]).length
    rw [hfits, count_lineFeed_jsonLine, h.written, List.length_append, List.length_singleton]

-- ---------------------------------------------------------------------------
-- Sessions
-- ---------------------------------------------------------------------------

/-- A sink in front of an empty list. -/
def emptyLog : Sink FactList := { store := {} }

theorem ahead_emptyLog : Ahead 0 HasLines emptyLog (emptyDevice none) :=
  ⟨rfl, rfl, rfl, rfl⟩

/-- A device that takes everything **agrees** with a list of facts: every step
of a session ends on both in the same way and with the same labels, and the
device has the bytes of one line for each fact of the list.

Those bytes **read back** as the facts.  They are a text, one line feed ends
each line of it, the fact of a line is the one it was written for, and other
facts have another text. -/
theorem device_agrees_and_reads_back (steps : List SessionStep) :
    let log := runSession steps emptyLog
    let device := runSession steps (emptyDevice none)
    (device.lastLabel = log.lastLabel ∧
      device.store.written = log.store.facts.length ∧
      device.store.accepted.toList = log.store.facts.flatMap (·.jsonLine.encode) ∧
      Utf8.decode device.store.accepted.toList = .ok (jsonText log.store.facts)) ∧
    (∀ before step after, steps = before ++ step :: after →
      step.answer? (runSession before (emptyDevice none)) =
        step.answer? (runSession before emptyLog)) ∧
    (∀ facts : List Fact,
      (jsonText facts).lines = facts.map Fact.jsonLine ∧
      (∀ f ∈ facts, ∃ body, f.jsonLine = body ++ ['\n'] ∧ '\n' ∉ body) ∧
      (jsonText facts).count '\n' = facts.length ∧
      readFacts (jsonText facts) = some facts) ∧
    Function.Injective jsonText := by
  have hahead := keepsInStep_hasLines.runSession ahead_emptyLog steps
  have hlines := hahead.stores
  refine ⟨⟨hahead.labels, hlines.written, hlines.accepted, ?_⟩, ?_, ?_, jsonText_injective⟩
  · rw [hlines.accepted, ← encode_jsonText, Utf8.decode_encode]
  · intro before step after _
    have hbefore := keepsInStep_hasLines.runSession ahead_emptyLog before
    exact (keepsInStep_hasLines.run hbefore step).2
  · intro facts
    exact ⟨lines_jsonText facts, fun f _ => ⟨_, jsonLine_eq f, newline_not_mem_json f⟩,
      count_newline_jsonText facts, readFacts_jsonText facts⟩

/-- A script file whose name and comment have to be escaped. -/
def escapedFile : SessionStep :=
  .script { extractLines := false } ⟨⟨['"', '\n']⟩, ['/', '/', '\\', 'é', '\t', '\n']⟩

def escapedFacts : List Fact :=
  [.file ⟨2⟩ ['"', '\n'], .topLevel ⟨3⟩ ⟨2⟩ .script false ⟨⟨1, 1⟩, ⟨1, 5⟩⟩,
    .comment ⟨4⟩ ⟨3⟩ ['/', '/', '\\', 'é', '\t'] ⟨⟨1, 1⟩, ⟨1, 5⟩⟩]

/-- Behind a file that is rejected its facts are read back as they were. -/
theorem device_agrees_and_reads_back_escaped :
    [unclosedFile, escapedFile] = [unclosedFile] ++ escapedFile :: [] ∧
    (runSession [unclosedFile, escapedFile] (emptyDevice none)).store.written = 3 ∧
    Utf8.decode (runSession [unclosedFile, escapedFile] (emptyDevice none)).store.accepted.toList =
      .ok (jsonText escapedFacts) ∧
    escapedFile.answer? (runSession [unclosedFile] (emptyDevice none)) = some (.ok ⟨0, 1⟩) ∧
    readFacts (jsonText escapedFacts) = some escapedFacts := by
  have hfacts :
      (runSession [unclosedFile, escapedFile] emptyLog).store.facts = escapedFacts := by
    decide +kernel
  have hanswer : escapedFile.answer? (runSession [unclosedFile] emptyLog) =
      some (.ok ⟨0, 1⟩) := by
    decide +kernel
  obtain ⟨⟨-, hwritten, -, hdecode⟩, hsteps, htext, -⟩ :=
    device_agrees_and_reads_back [unclosedFile, escapedFile]
  rw [hfacts] at hwritten hdecode
  obtain ⟨-, -, -, hread⟩ := htext escapedFacts
  exact ⟨rfl, hwritten, hdecode, (hsteps [unclosedFile] escapedFile [] rfl).trans hanswer, hread⟩

end FenceFacts
