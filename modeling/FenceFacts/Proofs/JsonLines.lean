import FenceFacts.Fact.Store
import FenceFacts.Proofs.Run
import FenceFacts.Proofs.Utf8
import Mathlib.Tactic.Common

/-!
# FenceFacts — facts on a device

A fact is written as one line: no piece of its JSON holds a line feed, as
strings escape theirs, so the only one is the last byte of the line.  That is
why a device can count facts by their line feeds even where it is cut off in
the middle of one.

What a device makes of a list of facts is told by the bytes of their lines and
by the room it has left: it keeps the bytes that fit.

## Results

* `exists_jsonLine_bytes` — the line feed ends the line.
* `JsonLines.writeAll_eq`  — a list of facts on a device.
-/

namespace FenceFacts

-- ---------------------------------------------------------------------------
-- Pieces of a line
-- ---------------------------------------------------------------------------

/-- No piece breaks the line. -/
def OneLine (p : JsonPieces) : Prop := ∀ piece ∈ p, '\n' ∉ piece

instance (p : JsonPieces) : Decidable (OneLine p) :=
  inferInstanceAs (Decidable (∀ piece ∈ p, '\n' ∉ piece))

theorem newline_not_mem_jsonChar (c : Char) : '\n' ∉ jsonChar c := by
  unfold jsonChar jsonEscape?
  split
  · next letter hletter =>
    have hletters : ∀ e ∈ jsonEscapes, '\n' ∉ ['\\', e.2] := by decide
    obtain ⟨before, after, hescapes, -⟩ := List.lookup_eq_some_iff.mp hletter
    exact hletters (c, letter) (by rw [hescapes]; simp)
  · next hnone =>
    split
    · have hhex (n : Nat) : n.digitChar ≠ '\n' := Nat.digitChar_ne '\n' (by decide)
      simp [(hhex _).symm]
    · -- a line feed has a letter, so this is another character
      rintro hmem
      obtain rfl := List.mem_singleton.mp hmem
      exact absurd hnone (by decide)

theorem oneLine_append {p q : JsonPieces} : OneLine (p ++ q) ↔ OneLine p ∧ OneLine q :=
  List.forall_mem_append

theorem oneLine_cons {piece : Text} {p : JsonPieces} :
    OneLine (piece :: p) ↔ '\n' ∉ piece ∧ OneLine p :=
  List.forall_mem_cons

theorem oneLine_jsonString (t : Text) : OneLine (jsonString t) := by
  have hruns : OneLine (jsonRuns t) := by
    intro piece hpiece hmem
    obtain ⟨run, -, rfl⟩ := List.mem_map.mp hpiece
    obtain ⟨c, -, hc⟩ := List.mem_flatMap.mp hmem
    exact newline_not_mem_jsonChar c hc
  have hquote : OneLine [['"']] := by decide
  rw [jsonString, List.cons_append, oneLine_cons, oneLine_append]
  exact ⟨by decide, hruns, hquote⟩

theorem oneLine_jsonWord (word : String) : OneLine (jsonWord word) :=
  oneLine_jsonString word.toList

theorem oneLine_jsonNumber (n : Nat) : OneLine (jsonNumber n) := by
  intro piece hpiece hmem
  obtain rfl := List.mem_singleton.mp hpiece
  exact absurd (Nat.isDigit_of_mem_toDigits (by decide) (by decide) hmem) (by decide)

theorem oneLine_jsonBool (b : Bool) : OneLine (jsonBool b) := by
  cases b <;> decide

/-- An object stays on one line if its values do. -/
theorem oneLine_jsonObject {fields : List (String × JsonPieces)}
    (h : ∀ field ∈ fields, OneLine field.2) : OneLine (jsonObject fields) := by
  have hbody : OneLine ([[',']].intercalate (fields.map fun f => jsonField f.1 f.2)) := by
    induction fields with
    | nil => exact fun piece hpiece => absurd hpiece List.not_mem_nil
    | cons field fields ih =>
      obtain ⟨key, value⟩ := field
      obtain ⟨hvalue, hfields⟩ := List.forall_mem_cons.mp h
      have hfield : OneLine (jsonField key value) := by
        rw [jsonField, oneLine_append, oneLine_cons]
        exact ⟨oneLine_jsonWord key, by decide, hvalue⟩
      cases fields with
      | nil =>
        rw [List.map_singleton, List.intercalate_singleton]
        exact hfield
      | cons next fields =>
        have hcomma : OneLine [[',']] := by decide
        rw [List.map_cons, List.map_cons, List.intercalate_cons_cons, oneLine_append,
          oneLine_append]
        exact ⟨⟨hfield, hcomma⟩, ih hfields⟩
  have hclose : OneLine [['\x7d']] := by decide
  rw [jsonObject, List.cons_append, oneLine_cons, oneLine_append]
  exact ⟨by decide, hbody, hclose⟩

theorem oneLine_json_position (p : Position) : OneLine p.json :=
  oneLine_jsonObject (by simp [oneLine_jsonNumber])

theorem oneLine_json_location (l : Location) : OneLine l.json :=
  oneLine_jsonObject (by simp [oneLine_json_position])

theorem oneLine_json_fact (f : Fact) : OneLine f.json := by
  have hkind (k : TopLevelKind) : OneLine k.json := by
    cases k <;> exact oneLine_jsonWord _
  have hfields : ∀ field ∈ f.jsonFields, OneLine field.2 := by
    cases f <;>
      simp [Fact.jsonFields, Label.json, hkind, oneLine_jsonNumber, oneLine_jsonString,
        oneLine_jsonWord, oneLine_jsonBool, oneLine_json_location]
  exact oneLine_jsonObject (List.forall_mem_cons.mpr ⟨oneLine_jsonWord _, hfields⟩)

theorem newline_not_mem_json (f : Fact) : '\n' ∉ f.json.flatten := by
  intro hmem
  obtain ⟨piece, hpiece, hmem⟩ := List.mem_flatten.mp hmem
  exact oneLine_json_fact f piece hpiece hmem

theorem jsonLine_eq (f : Fact) : f.jsonLine = f.json.flatten ++ ['\n'] := by
  rw [Fact.jsonLine, Fact.linePieces, List.flatten_append]
  rfl

-- ---------------------------------------------------------------------------
-- Bytes of a line
-- ---------------------------------------------------------------------------

/-- The byte of a line feed. -/
def lineFeed : UInt8 := 10

/-- Only the line feed has its byte. -/
theorem lineFeed_mem_utf8EncodeChar {c : Char} (h : lineFeed ∈ String.utf8EncodeChar c) :
    c = '\n' :=
  (Utf8.eq_of_mem_utf8EncodeChar (by decide) h).2

theorem lineFeed_not_mem_encode {t : Text} (h : '\n' ∉ t) : lineFeed ∉ t.encode := by
  intro hmem
  obtain ⟨c, hc, hbyte⟩ := List.mem_flatMap.mp hmem
  exact h (lineFeed_mem_utf8EncodeChar hbyte ▸ hc)

/-- The bytes of a fact are its JSON and **one line feed**, at the end. -/
theorem exists_jsonLine_bytes (f : Fact) :
    ∃ body, f.jsonLine.encode = body ++ [lineFeed] ∧ lineFeed ∉ body := by
  refine ⟨Text.encode f.json.flatten, ?_, lineFeed_not_mem_encode (newline_not_mem_json f)⟩
  rw [jsonLine_eq, Text.encode, List.flatMap_append]
  rfl

theorem count_lineFeed_jsonLine (f : Fact) : f.jsonLine.encode.count lineFeed = 1 := by
  obtain ⟨body, hbytes, hbody⟩ := exists_jsonLine_bytes f
  rw [hbytes, List.count_append, List.count_eq_zero.mpr hbody]
  rfl

/-- Less than a line holds no line feed. -/
theorem count_lineFeed_of_short {body q : List UInt8} (hbody : lineFeed ∉ body)
    (hq : q <+: body ++ [lineFeed]) (hshort : q.length < (body ++ [lineFeed]).length) :
    q.count lineFeed = 0 := by
  rcases List.prefix_concat_iff.mp hq with rfl | hq
  · exact absurd hshort (Nat.lt_irrefl _)
  · exact List.count_eq_zero.mpr fun hmem => hbody (hq.mem hmem)

-- ---------------------------------------------------------------------------
-- Devices
-- ---------------------------------------------------------------------------

/-- The bytes of the lines of facts. -/
def lineBytes (facts : List Fact) : List UInt8 := facts.flatMap (·.jsonLine.encode)

namespace JsonLines

variable {s : JsonLines} {a b bytes : List UInt8}

/-- The device after it was handed the bytes: it has those that fit, and the
lines that are whole among them are counted. -/
def taking (s : JsonLines) (bytes : List UInt8) : JsonLines :=
  { s with
    accepted := s.accepted ++ (s.fitting bytes).toArray
    written := s.written + (s.fitting bytes).count lineFeed }

theorem fitting_front (s : JsonLines) (bytes : List UInt8) : s.fitting bytes <+: bytes := by
  unfold fitting
  split
  · exact List.take_prefix _ _
  · exact List.prefix_rfl

/-- The bytes fit, or some are left over. -/
theorem fits_or_short (s : JsonLines) (bytes : List UInt8) :
    s.fitting bytes = bytes ∨ (s.fitting bytes).length < bytes.length := by
  have hfront := s.fitting_front bytes
  rcases Nat.lt_or_ge (s.fitting bytes).length bytes.length with hlt | hge
  · exact Or.inr hlt
  · exact Or.inl (hfront.eq_of_length_le hge)

/-- What comes behind bytes that fit has the room that they leave. -/
theorem fitting_append_of_fits (h : s.fitting a = a) :
    s.fitting (a ++ b) = a ++ (s.taking a).fitting b := by
  obtain ⟨accepted, room, written⟩ := s
  cases room with
  | none => rfl
  | some room =>
    have hsize : (taking ⟨accepted, some room, written⟩ a).accepted.size =
        accepted.size + a.length := by
      simp [taking, h]
    show (a ++ b).take (room - accepted.size) = a ++ b.take (room - _)
    rw [List.take_append, hsize, Nat.sub_sub]
    exact congrArg (· ++ _) h

theorem fitting_append_of_short (h : (s.fitting a).length < a.length) :
    s.fitting (a ++ b) = s.fitting a := by
  obtain ⟨accepted, room, written⟩ := s
  cases room with
  | none => exact absurd h (Nat.lt_irrefl _)
  | some room =>
    have hlength : room - accepted.size ≤ a.length := by
      have hmin : min (room - accepted.size) a.length < a.length := by
        rwa [← List.length_take]
      omega
    exact List.take_append_of_le_length hlength

theorem taking_append_of_fits (h : s.fitting a = a) :
    s.taking (a ++ b) = (s.taking a).taking b := by
  have hfits := fitting_append_of_fits (b := b) h
  simp only [taking] at hfits ⊢
  simp [hfits, h, Array.append_assoc, Nat.add_assoc]

theorem write_of_fits {f : Fact} (h : s.fitting f.jsonLine.encode = f.jsonLine.encode) :
    FactStore.write f s = .ok () (s.taking f.jsonLine.encode) := by
  show (append f.jsonLine.encode >>= fun _ => countWritten) s = _
  simp only [bind, EStateM.bind, append, h, Nat.lt_irrefl, if_false, taking,
    count_lineFeed_jsonLine]
  rfl

theorem write_of_short {f : Fact}
    (h : (s.fitting f.jsonLine.encode).length < f.jsonLine.encode.length) :
    FactStore.write f s = .error .deviceFull (s.taking f.jsonLine.encode) := by
  obtain ⟨body, hbytes, hbody⟩ := exists_jsonLine_bytes f
  have hcount : (s.fitting f.jsonLine.encode).count lineFeed = 0 := by
    have hfront := s.fitting_front f.jsonLine.encode
    rw [hbytes] at h hfront ⊢
    exact count_lineFeed_of_short hbody hfront h
  show (append f.jsonLine.encode >>= fun _ => countWritten) s = _
  simp only [bind, EStateM.bind, append, h, if_true, taking, hcount]
  rfl

/-- What a device makes of **a list of facts**: it takes the bytes of their
lines, and fails if those are not all. -/
theorem writeAll_eq (facts : List Fact) (s : JsonLines) :
    FactStore.writeAll facts s =
      if (s.fitting (lineBytes facts)).length < (lineBytes facts).length then
        .error .deviceFull (s.taking (lineBytes facts))
      else .ok () (s.taking (lineBytes facts)) := by
  induction facts generalizing s with
  | nil =>
    have hnothing : s.fitting [] = [] := List.prefix_nil.mp (s.fitting_front [])
    have hsame : s.taking [] = s := by simp [taking, hnothing]
    rw [show lineBytes [] = [] from rfl, hnothing, hsame]
    rfl
  | cons f facts ih =>
    have hbytes : lineBytes (f :: facts) = f.jsonLine.encode ++ lineBytes facts :=
      List.flatMap_cons
    rw [FactStore.writeAll_cons, hbytes]
    rcases s.fits_or_short f.jsonLine.encode with hfits | hshort
    · rw [write_of_fits hfits, fitting_append_of_fits hfits, taking_append_of_fits hfits]
      simp only [ih, List.length_append, Nat.add_lt_add_iff_left]
    · have hless : (s.fitting f.jsonLine.encode).length <
          (f.jsonLine.encode ++ lineBytes facts).length := by
        rw [List.length_append]
        omega
      have hsame := fitting_append_of_short (b := lineBytes facts) hshort
      rw [write_of_short hshort, hsame, if_pos hless, taking, taking, hsame]

end JsonLines

end FenceFacts
