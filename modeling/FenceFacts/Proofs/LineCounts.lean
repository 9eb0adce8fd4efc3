import FenceFacts.Extraction.Totals
import FenceFacts.Proofs.LineIndex
import FenceFacts.Proofs.Token

/-!
# FenceFacts — counting lines

A token reaches from the line of its first character to the line of its last
one.  Which lines these are is told by the line feeds before the token and in
it, as long as it does not end with one: then the lines are told apart by the
characters alone, whatever offsets they stand at.

However many tokens reach onto a line it is counted once, so no count of a
script is larger than the number of its lines.

## Results

* `lineRange_append`      — the lines that a token reaches onto.
* `within_countLines`     — the counts of a script are at most its lines.
* `LineTotals.Within.add` — sums of counts, as long as they stay in range.
-/

namespace FenceFacts

-- ---------------------------------------------------------------------------
-- The lines of a token
-- ---------------------------------------------------------------------------

theorem lineRange_append {before piece : Text} (hne : piece ≠ [])
    (hlast : piece.getLast? ≠ some '\n') (kind : TokenKind) (after : Text) :
    Token.lineRange (.ofText (before ++ (piece ++ after)))
        ⟨kind, piece, ⟨before.byteLength, before.byteLength + piece.byteLength⟩⟩ =
      (before.count '\n', (before ++ piece).count '\n') := by
  obtain ⟨init, c, rfl⟩ := List.eq_nil_or_concat piece |>.resolve_left hne
  rw [List.concat_eq_append] at hlast ⊢
  have hc : c ≠ '\n' := by
    rintro rfl
    exact hlast List.getLast?_concat
  have hstart : (LineIndex.ofText (before ++ (init ++ [c] ++ after))).lineOf before.byteLength =
      before.count '\n' :=
    LineIndex.lineOf_append before _
  -- the last byte belongs to the last character, which stands on the line of what is before it
  have hstop : (LineIndex.ofText (before ++ (init ++ [c] ++ after))).lineOf
      (max (before.byteLength + Text.byteLength (init ++ [c]) - 1) before.byteLength) =
      (before ++ (init ++ [c])).count '\n' := by
    obtain ⟨a, m, ham, ha, hm⟩ := Text.exists_closed_append (before ++ init)
    have hmc : '\n' ∉ m ++ [c] := by
      simp [hm, Ne.symm hc]
    have hsplit : before ++ (init ++ [c] ++ after) = a ++ (m ++ [c] ++ after) := by
      rw [List.append_assoc init, ← List.append_assoc before, ham, List.append_assoc a,
        List.append_assoc m]
    have hbytes := congrArg Text.byteLength ham
    have hsize := c.utf8Size_pos
    simp only [Text.byteLength_append] at hbytes
    rw [hsplit, LineIndex.lineOf_ofText ha hmc]
    · rw [← List.append_assoc, ham, List.append_assoc, List.count_append,
        List.count_eq_zero_of_not_mem hmc, Nat.add_zero]
    · simp only [Text.byteLength_append, Text.byteLength_cons, Text.byteLength_nil]
      omega
    · simp only [Text.byteLength_append, Text.byteLength_cons, Text.byteLength_nil]
      omega
  rw [Token.lineRange, hstart, hstop]

-- ---------------------------------------------------------------------------
-- Totals
-- ---------------------------------------------------------------------------

theorem touchedLines_le (index : LineIndex) (tokens : List Token) :
    touchedLines index tokens ≤ index.lineCount := by
  unfold touchedLines
  exact le_of_le_of_eq List.countP_le_length List.length_range

namespace LineTotals

/-- Neither count is above `n`. -/
def Within (t : LineTotals) (n : Nat) : Prop := t.code ≤ n ∧ t.comments ≤ n

theorem add_of_lt {a b : LineTotals} (hcode : a.code + b.code < bound)
    (hcomments : a.comments + b.comments < bound) :
    a.add b = .ok ⟨a.code + b.code, a.comments + b.comments⟩ := by
  rw [add, sumCounts, sumCounts, if_pos hcode, if_pos hcomments]
  rfl

/-- Counts whose bounds add up in range **add up**. -/
theorem Within.add {a b : LineTotals} {m n : Nat} (ha : a.Within m) (hb : b.Within n)
    (h : m + n < bound) : ∃ c, a.add b = .ok c ∧ c.Within (m + n) := by
  have hcode : a.code + b.code ≤ m + n := Nat.add_le_add ha.1 hb.1
  have hcomments : a.comments + b.comments ≤ m + n := Nat.add_le_add ha.2 hb.2
  exact ⟨_, add_of_lt (Nat.lt_of_le_of_lt hcode h) (Nat.lt_of_le_of_lt hcomments h), hcode,
    hcomments⟩

/-- The first counts of a document are the sum so far. -/
theorem Within.zero_add {a : LineTotals} {n : Nat} (ha : a.Within n) (h : n < bound) :
    LineTotals.add {} a = .ok a := by
  have hcode : 0 + a.code < bound := by
    rw [Nat.zero_add]
    exact Nat.lt_of_le_of_lt ha.1 h
  have hcomments : 0 + a.comments < bound := by
    rw [Nat.zero_add]
    exact Nat.lt_of_le_of_lt ha.2 h
  rw [add_of_lt hcode hcomments]
  simp only [Nat.zero_add]

end LineTotals

/-- The counts of a script are **at most its lines**. -/
theorem within_countLines {t : Text} (ht : t ≠ []) (tokens : List Token) :
    (countLines (.ofText t) tokens).Within t.lines.length := by
  rw [← LineIndex.lineCount_ofText ht]
  exact ⟨touchedLines_le _ _, touchedLines_le _ _⟩

end FenceFacts
