import FenceFacts.Proofs.Pairing

/-!
# FenceFacts — extents of blocks

The offsets of a block are sums of lengths of lines, taken before the text is
looked at again.  Cutting the text at them gives back the lines of the block:
its opening line, its content and its closing line stand one behind the other,
and the line feed before its opening line is where the block says.  The block
behind starts no earlier than the closing line ends.

## Results

* `Block.Occupies`        — what the offsets of a block cut out of a text.
* `occupies_of_mem_blocks` — every block of a text occupies its place.
* `pairwise_blocks`       — blocks stand in order and do not overlap.
* `extents_are_exact`     — all blocks of a text.
-/

namespace FenceFacts

/-- The offsets of the block lie between characters of the text and cut out
the line feed before its opening line, the opening line, the content and the
closing line. -/
structure Block.Occupies (b : Block) (t : Text) : Prop where
  ordered : b.span.start ≤ b.contentSpan.start ∧ b.contentSpan.start ≤ b.contentSpan.stop ∧
    b.contentSpan.stop ≤ b.span.stop ∧ b.span.stop ≤ t.byteLength
  boundaries : t.IsBoundary b.span.start ∧ t.IsBoundary b.contentSpan.start ∧
    t.IsBoundary b.contentSpan.stop ∧ t.IsBoundary b.span.stop
  breakBefore : b.breakBefore? = none ∧ b.span.start = 0 ∨
    ∃ n, b.breakBefore? = some n ∧ b.span.start = n + 1 ∧ t.charAt? n = some '\n'
  /-- Its only line feed ends the opening line. -/
  opening : ∃ m, '\n' ∉ m ∧
    t.slice? b.span.start b.contentSpan.start = some (m ++ ['\n']) ∧
    openedTag? (m ++ ['\n']) = some b.tag
  content : t.slice? b.contentSpan.start b.contentSpan.stop = some b.content
  content_closed : b.content.IsClosed
  content_lines : ∀ l ∈ b.content.lines, isFenceLine l = false
  /-- A whole line, which ends with a line feed or ends the text. -/
  closing : ∃ m, '\n' ∉ m ∧
    (t.slice? b.contentSpan.stop b.span.stop = some (m ++ ['\n']) ∨
      t.slice? b.contentSpan.stop b.span.stop = some m ∧ b.span.stop = t.byteLength) ∧
    isFenceLine m = true

-- ---------------------------------------------------------------------------
-- One block
-- ---------------------------------------------------------------------------

section OfLines

variable {t opener closer info : Text} {pre body post : List Text} {tag : ScriptTag}

/-- Whole lines between two lines of a text are the lines of what they make. -/
theorem lines_flatten_between {l l' : Text}
    (h : t.lines = pre ++ l :: (body ++ l' :: post)) :
    Text.IsClosed body.flatten ∧ Text.lines body.flatten = body := by
  have hsplit : t.lines = (pre ++ [l]) ++ (body ++ l' :: post) := by
    rw [h, List.append_assoc, List.singleton_append]
  have hsplit' : t.lines = (pre ++ [l] ++ body) ++ l' :: post := by
    rw [hsplit, ← List.append_assoc]
  obtain ⟨hclosed, hlines⟩ := Text.isClosed_of_lines_eq hsplit'
  rw [List.flatten_append] at hclosed hlines
  have hbody : Text.IsClosed body.flatten := Text.IsClosed.of_append hclosed
  refine ⟨hbody, ?_⟩
  -- what stands before them is closed as well, so their lines start afresh
  cases body with
  | nil => rfl
  | cons b bs =>
    obtain ⟨hfront, hfrontLines⟩ := Text.isClosed_of_lines_eq hsplit
    rw [Text.lines_append hfront, hfrontLines] at hlines
    exact List.append_cancel_left hlines

theorem slice?_of_eq {before piece after : Text} (h : t = before ++ (piece ++ after)) :
    t.slice? before.byteLength (before.byteLength + piece.byteLength) = some piece := by
  rw [h, Text.slice?_append]

theorem text_eq_of_lines (h : t.lines = pre ++ opener :: (body ++ closer :: post)) :
    t = pre.flatten ++ (opener ++ (body.flatten ++ (closer ++ post.flatten))) := by
  rw [← Text.flatten_lines t, h]
  simp only [List.flatten_append, List.flatten_cons]

theorem occupies_ofLines (h : t.lines = pre ++ opener :: (body ++ closer :: post))
    (hopener : openedTag? opener = some tag) (hbody : ∀ l ∈ body, isFenceLine l = false)
    (hcloser : isFenceLine closer = true) :
    (Block.ofLines (Text.byteLength pre.flatten) opener body closer info tag).Occupies t := by
  obtain ⟨hclosed, hlines⟩ := lines_flatten_between h
  -- the text as seen from each of the offsets
  have hopening := text_eq_of_lines h
  have hcontent :
      t = (pre.flatten ++ opener) ++ (body.flatten ++ (closer ++ post.flatten)) := by
    rw [hopening, List.append_assoc]
  have hclosing :
      t = (pre.flatten ++ opener ++ body.flatten) ++ (closer ++ post.flatten) := by
    rw [hcontent, List.append_assoc (pre.flatten ++ opener)]
  have hbehind : t = (pre.flatten ++ opener ++ body.flatten ++ closer) ++ post.flatten := by
    rw [hclosing, List.append_assoc (pre.flatten ++ opener ++ body.flatten)]
  have hmem : opener ∈ t.lines ∧ closer ∈ t.lines := by
    rw [h]
    simp
  constructor
  case ordered =>
    rw [hbehind]
    simp only [Block.ofLines, Block.contentSpan, Text.byteLength_append]
    omega
  case boundaries =>
    refine ⟨⟨_, _, hopening, rfl⟩, ⟨_, _, hcontent, ?_⟩, ⟨_, _, hclosing, ?_⟩,
      ⟨_, _, hbehind, ?_⟩⟩
    · simp only [Block.ofLines, Block.contentSpan, Text.byteLength_append]
    · simp only [Block.ofLines, Block.contentSpan, Text.byteLength_append]
    · simp only [Block.ofLines, Text.byteLength_append]
  case breakBefore =>
    rcases (Text.isClosed_of_lines_eq h).1 with hnil | hterm
    · left
      simp only [Block.ofLines, hnil, Text.byteLength_nil, if_true, and_self]
    · -- the lines before end with the line feed
      right
      obtain ⟨s, hs⟩ := Text.isTerminated_iff.mp hterm
      have hlength : Text.byteLength pre.flatten = Text.byteLength s + 1 := by
        rw [hs, Text.byteLength_append]
        rfl
      refine ⟨Text.byteLength s, ?_, hlength, ?_⟩
      · simp [Block.ofLines, hlength]
      · rw [hopening, hs, List.append_assoc, List.singleton_append]
        exact Text.charAt?_append s '\n' _
  case opening =>
    obtain ⟨hterm, -⟩ := openedTag?_eq_some_iff.mp hopener
    obtain ⟨m, hm, rfl | ⟨rfl, -⟩⟩ := Text.exists_of_mem_lines hmem.1
    · refine ⟨m, hm, ?_, hopener⟩
      exact slice?_of_eq hopening
    · obtain ⟨s, rfl⟩ := Text.isTerminated_iff.mp hterm
      exact absurd (by simp) hm
  case content =>
    have hslice := slice?_of_eq hcontent
    rw [Text.byteLength_append] at hslice
    exact hslice
  case content_closed => exact hclosed
  case content_lines =>
    show ∀ l ∈ Text.lines body.flatten, isFenceLine l = false
    rw [hlines]
    exact hbody
  case closing =>
    have hslice := slice?_of_eq hclosing
    rw [Text.byteLength_append, Text.byteLength_append] at hslice
    obtain ⟨m, hm, rfl | ⟨rfl, -⟩⟩ := Text.exists_of_mem_lines hmem.2
    · exact ⟨m, hm, Or.inl hslice, isFenceLine_of_concat hcloser⟩
    · -- without its line feed it is the last line
      refine ⟨closer, hm, Or.inr ⟨hslice, ?_⟩, hcloser⟩
      have hpost : post = [] := by
        by_contra hne
        have hbefore : closer ∈ t.lines.dropLast := by
          rw [h, ← List.cons_append, ← List.append_assoc,
            List.dropLast_append_of_ne_nil (List.cons_ne_nil closer post),
            List.dropLast_cons_of_ne_nil hne]
          exact List.mem_append_right _ List.mem_cons_self
        obtain ⟨s, rfl⟩ := Text.isTerminated_iff.mp
          (Text.isTerminated_of_mem_dropLast_lines hbefore)
        exact absurd (by simp) hm
      rw [hbehind, hpost]
      simp only [Block.ofLines, List.flatten_nil, List.append_nil, Text.byteLength_append]

end OfLines

-- ---------------------------------------------------------------------------
-- All blocks
-- ---------------------------------------------------------------------------

/-- Every block of a text **occupies its place**. -/
theorem occupies_of_mem_blocks {t : Text} {b : Block} (h : b ∈ (scanBlocks t).blocks) :
    b.Occupies t := by
  obtain ⟨pre, opener, body, closer, post, info, tag, f, hls, hterm, hopener, hbody, hcloser,
    rfl⟩ := exists_lines_of_mem_blocks h
  have htag : openedTag? opener = some tag := openedTag?_of_ofLine? hterm hopener
  rw [Nat.zero_add]
  exact occupies_ofLines hls htag (forall_isFenceLine_eq_false hbody)
    (ofLine?_isSome_iff.mp (by rw [hcloser]; rfl))

theorem start_le_of_mem_blocks {start : Nat} {ls : List Text} {b : Block}
    (h : b ∈ (scanLines none (spanLines start ls)).blocks) : start ≤ b.span.start := by
  obtain ⟨pre, opener, body, closer, post, info, tag, f, -, -, -, -, -, rfl⟩ :=
    exists_lines_of_mem_blocks h
  exact Nat.le_add_right start _

/-- Blocks stand in the order of the text and **do not overlap**. -/
theorem pairwise_blocks (start : Nat) (ls : List Text) :
    (scanLines none (spanLines start ls)).blocks.Pairwise
      fun b b' => b.span.stop ≤ b'.span.start := by
  induction ls using scan_induction generalizing start with
  | nil => exact List.Pairwise.nil
  | skip l ls hopens ih =>
    rw [scanLines_none_cons hopens]
    exact ih _
  | unclosed opener body hopens hbody =>
    obtain ⟨hterm, info, tag, hopener⟩ := hopens
    rw [scanLines_opener_unclosed hterm hopener hbody]
    exact List.Pairwise.nil
  | block opener body closer post hopens hbody hcloser ih =>
    obtain ⟨hterm, info, tag, hopener⟩ := hopens
    obtain ⟨f, hf⟩ := Option.isSome_iff_exists.mp hcloser
    rw [scanLines_opener hterm hopener hbody hf]
    -- all that is scanned behind the closing line starts behind it
    exact List.pairwise_cons.mpr ⟨fun b' hb' => start_le_of_mem_blocks hb', ih _⟩

/-- The offsets of the blocks of a text are **exact**: they cut the lines of
each block out of the text, and the blocks stand one behind the other. -/
theorem extents_are_exact (t : Text) :
    (∀ b ∈ (scanBlocks t).blocks, b.Occupies t) ∧
      (scanBlocks t).blocks.Pairwise fun b b' => b.span.stop ≤ b'.span.start :=
  ⟨fun _ hb => occupies_of_mem_blocks hb, pairwise_blocks 0 t.lines⟩

/-- An empty block at the start, and right behind it one that ends the text. -/
def adjacentBlocks : Text :=
  ['\x60', '\x60', '\x60', 'j', 's', '\n', '\x60', '\x60', '\x60', '\n',
    '\x60', '\x60', '\x60', 'J', 'S', '\n', '\u00e9', '\n', '\x60', '\x60', '\x60']

theorem extents_are_exact_adjacentBlocks :
    ∃ b b', (scanBlocks adjacentBlocks).blocks = [b, b'] ∧
      b.breakBefore? = none ∧ b.span = ⟨0, 10⟩ ∧ b.Occupies adjacentBlocks ∧
      b'.breakBefore? = some 9 ∧ b'.span = ⟨10, 22⟩ ∧ b'.Occupies adjacentBlocks := by
  obtain ⟨hoccupies, -⟩ := extents_are_exact adjacentBlocks
  have hblocks : (scanBlocks adjacentBlocks).blocks =
      [⟨[], 6, none, ⟨0, 10⟩, .js, ['j', 's']⟩,
        ⟨['\u00e9', '\n'], 16, some 9, ⟨10, 22⟩, .js, ['J', 'S']⟩] := by decide
  rw [hblocks] at hoccupies
  exact ⟨_, _, hblocks, rfl, rfl, hoccupies _ List.mem_cons_self, rfl, rfl,
    hoccupies _ (List.mem_cons_of_mem _ List.mem_cons_self)⟩

end FenceFacts
