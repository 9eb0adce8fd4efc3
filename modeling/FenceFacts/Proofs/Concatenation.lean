import FenceFacts.Proofs.Block

/-!
# FenceFacts — texts behind each other

A text that ends with a line feed, and in which every block is closed, can be
scanned on its own: whatever stands behind it starts a line and stands outside
of any block.  So a scan of two texts is the two scans, one behind the other.
Nothing is carried from the first to the second but the number of bytes, by
which all offsets move on.  A fence that opens the second text has a line feed
before it now, the last one of the first text.

## Results

* `scanLines_append`   — behind closed blocks a scan goes on afresh.
* `scanLines_add`      — further on, the same blocks are found.
* `scan_append_closed` — the scan of two texts.
-/

namespace FenceFacts

-- ---------------------------------------------------------------------------
-- Further on
-- ---------------------------------------------------------------------------

/-- The block as it stands with `n` more bytes in front of the text, the last
one of which is a line feed. -/
def Block.behind (n : Nat) (b : Block) : Block :=
  { b with
    start := b.start + n
    breakBefore? := some (match b.breakBefore? with
      | some m => m + n
      | none => n - 1)
    span := b.span.shift n }

theorem Block.ofLines_add {n : Nat} (hn : 0 < n) (start : Nat) (opener : Text) (body : List Text)
    (closer info : Text) (tag : ScriptTag) :
    Block.ofLines (start + n) opener body closer info tag =
      (Block.ofLines start opener body closer info tag).behind n := by
  have hbreak : (if start + n = 0 then none else some (start + n - 1)) =
      some (match (if start = 0 then none else some (start - 1) : Option Nat) with
        | some m => m + n
        | none => n - 1) := by
    rw [if_neg (by omega)]
    by_cases hstart : start = 0
    · rw [if_pos hstart, hstart, Nat.zero_add]
    · rw [if_neg hstart]
      show some (start + n - 1) = some (start - 1 + n)
      rw [Nat.sub_add_comm (Nat.pos_of_ne_zero hstart)]
  simp only [ofLines, behind, Span.shift, Block.mk.injEq, Span.mk.injEq, true_and, and_true]
  exact ⟨by omega, hbreak, by omega⟩

/-- **Further on** the same lines make the same blocks. -/
theorem scanLines_add {n : Nat} (hn : 0 < n) (start : Nat) (ls : List Text) :
    scanLines none (spanLines (start + n) ls) =
      ⟨(scanLines none (spanLines start ls)).blocks.map (·.behind n),
        (scanLines none (spanLines start ls)).unclosed?.map (·.shift n)⟩ := by
  induction ls using scan_induction generalizing start with
  | nil => rfl
  | skip l ls hopens ih =>
    rw [scanLines_none_cons hopens, scanLines_none_cons hopens, Nat.add_right_comm, ih]
  | unclosed opener body hopens hbody =>
    obtain ⟨hterm, info, tag, hopener⟩ := hopens
    rw [scanLines_opener_unclosed hterm hopener hbody,
      scanLines_opener_unclosed hterm hopener hbody, Nat.add_right_comm]
    rfl
  | block opener body closer post hopens hbody hcloser ih =>
    obtain ⟨hterm, info, tag, hopener⟩ := hopens
    obtain ⟨f, hcloser⟩ := Option.isSome_iff_exists.mp hcloser
    rw [scanLines_opener hterm hopener hbody hcloser,
      scanLines_opener hterm hopener hbody hcloser, Block.ofLines_add hn]
    -- what is behind the block moves on by as much as the block
    have hpost := ih (Block.ofLines start opener body closer info tag).span.stop
    exact congrArg (fun later : BlockScan => (⟨_ :: later.blocks, later.unclosed?⟩ : BlockScan))
      hpost

-- ---------------------------------------------------------------------------
-- Lines behind each other
-- ---------------------------------------------------------------------------

/-- Behind lines in which every block is closed a scan goes on **afresh**. -/
theorem scanLines_append {start : Nat} {ls : List Text}
    (h : (scanLines none (spanLines start ls)).unclosed? = none) (ls' : List Text) :
    scanLines none (spanLines start (ls ++ ls')) =
      let later := scanLines none (spanLines (start + Text.byteLength ls.flatten) ls')
      ⟨(scanLines none (spanLines start ls)).blocks ++ later.blocks, later.unclosed?⟩ := by
  induction ls using scan_induction generalizing start with
  | nil => rfl
  | skip l ls hopens ih =>
    rw [scanLines_none_cons hopens] at h
    rw [List.cons_append, scanLines_none_cons hopens, scanLines_none_cons hopens, ih h,
      List.flatten_cons, Text.byteLength_append, Nat.add_assoc]
  | unclosed opener body hopens hbody =>
    obtain ⟨hterm, info, tag, hopener⟩ := hopens
    rw [scanLines_opener_unclosed hterm hopener hbody] at h
    cases h
  | block opener body closer post hopens hbody hcloser ih =>
    obtain ⟨hterm, info, tag, hopener⟩ := hopens
    obtain ⟨f, hcloser⟩ := Option.isSome_iff_exists.mp hcloser
    rw [scanLines_opener hterm hopener hbody hcloser] at h
    have hlines : opener :: (body ++ closer :: post) ++ ls' =
        opener :: (body ++ closer :: (post ++ ls')) := by
      simp only [List.cons_append, List.append_assoc]
    have hstop : (Block.ofLines start opener body closer info tag).span.stop +
        Text.byteLength post.flatten =
          start + Text.byteLength (opener :: (body ++ closer :: post)).flatten := by
      simp only [Block.ofLines, List.flatten_cons, List.flatten_append, Text.byteLength_append]
      omega
    rw [hlines, scanLines_opener hterm hopener hbody hcloser,
      scanLines_opener hterm hopener hbody hcloser, ← hstop]
    dsimp only
    rw [ih h, List.cons_append]

-- ---------------------------------------------------------------------------
-- Texts behind each other
-- ---------------------------------------------------------------------------

/-- The scan of two texts is **the scan of the first and then that of the
second**, further on by the bytes of the first, if the first ends with a line
feed and leaves no block open. -/
theorem scan_append_closed {a b : Text} (ha : a.isTerminated = true)
    (hclosed : (scanBlocks a).unclosed? = none) :
    (scanBlocks (a ++ b)).blocks =
      (scanBlocks a).blocks ++ (scanBlocks b).blocks.map (·.behind a.byteLength) ∧
    (scanBlocks (a ++ b)).unclosed? = (scanBlocks b).unclosed?.map (·.shift a.byteLength) := by
  have hpos : 0 < a.byteLength := by
    obtain ⟨s, rfl⟩ := Text.isTerminated_iff.mp ha
    rw [Text.byteLength_append]
    exact Nat.lt_add_left _ (by decide)
  have hlines : (a ++ b).lines = a.lines ++ b.lines := Text.lines_append (Or.inr ha) b
  have hscan : scanBlocks (a ++ b) =
      let later := scanLines none (spanLines (0 + a.byteLength) b.lines)
      ⟨(scanBlocks a).blocks ++ later.blocks, later.unclosed?⟩ := by
    have happend := scanLines_append hclosed b.lines
    rw [Text.flatten_lines, ← hlines] at happend
    exact happend
  rw [hscan, scanLines_add hpos 0 b.lines]
  exact ⟨rfl, rfl⟩

/-- A block and a blank line. -/
def closedFront : Text :=
  ['\x60', '\x60', '\x60', 'j', 's', '\n', 'é', '\n', '\x60', '\x60', '\x60', '\n', '\n']

/-- A fence that opens the text, and one that is left open. -/
def fencedBack : Text :=
  ['\x60', '\x60', '\x60', 'J', 's', '\n', '\x60', '\x60', '\x60', '\n',
    '\x60', '\x60', '\x60', 'j', 's', '\n', 'x']

/-- The block that opened the second text follows the line feed at byte 13. -/
theorem scan_append_closed_fencedBack :
    closedFront.isTerminated = true ∧ (scanBlocks closedFront).unclosed? = none ∧
    (scanBlocks fencedBack).blocks = [⟨[], 6, none, ⟨0, 10⟩, .js, ['J', 's']⟩] ∧
    (scanBlocks (closedFront ++ fencedBack)).blocks =
      [⟨['é', '\n'], 6, none, ⟨0, 13⟩, .js, ['j', 's']⟩,
        ⟨[], 20, some 13, ⟨14, 24⟩, .js, ['J', 's']⟩] ∧
    (scanBlocks (closedFront ++ fencedBack)).unclosed? = some ⟨24, 30⟩ := by
  have hterm : closedFront.isTerminated = true := by decide
  have hclosed : (scanBlocks closedFront).unclosed? = none := by decide
  obtain ⟨hblocks, hunclosed⟩ := scan_append_closed (b := fencedBack) hterm hclosed
  refine ⟨hterm, hclosed, by decide, ?_, ?_⟩
  · rw [hblocks]
    decide
  · rw [hunclosed]
    decide

end FenceFacts
