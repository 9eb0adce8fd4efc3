import FenceFacts.Document
import FenceFacts.Proofs.Lines

/-!
# FenceFacts — where blocks stand

A scan reads lines, and what it yields can be read off the lines again: a
block stands between an opening and a closing fence line, its content is the
lines between them, and its offsets are the lengths of what comes before.

## Results

* `scanLines_none_append`     — lines that open no block are passed over.
* `scanLines_some_append`     — lines that are no fence belong to the block.
* `scan_induction`            — line by line and block by block.
* `exists_lines_of_mem_blocks` — every block has its lines.
* `Block.exists_standsIn`     — every block of a text has its place there.
-/

namespace FenceFacts

-- ---------------------------------------------------------------------------
-- Lines with spans
-- ---------------------------------------------------------------------------

theorem spanLines_append (start : Nat) (ls ls' : List Text) :
    spanLines start (ls ++ ls') =
      spanLines start ls ++ spanLines (start + Text.byteLength ls.flatten) ls' := by
  induction ls generalizing start with
  | nil => rfl
  | cons l ls ih =>
    rw [List.cons_append, spanLines, spanLines, ih, List.flatten_cons, Text.byteLength_append,
      Nat.add_assoc, List.cons_append]

-- ---------------------------------------------------------------------------
-- Steps of a scan
-- ---------------------------------------------------------------------------

/-- A line that opens a block: it is ended by a line feed, and a fence with a
JavaScript tag. -/
def OpensBlock (line : Text) : Prop :=
  line.isTerminated = true ∧ ∃ info tag, Fence.ofLine? line = some ⟨info, some tag⟩

theorem opensBlock_iff {line : Text} :
    OpensBlock line ↔ line.isTerminated = true ∧
      ((Fence.ofLine? line).bind (·.tag?)).isSome = true := by
  refine and_congr_right fun _ => ?_
  constructor
  · rintro ⟨info, tag, h⟩
    rw [h]
    rfl
  · intro h
    obtain ⟨tag, htag⟩ := Option.isSome_iff_exists.mp h
    obtain ⟨⟨info, tag?⟩, hfence, rfl⟩ := Option.bind_eq_some_iff.mp htag
    exact ⟨info, tag, hfence⟩

instance (line : Text) : Decidable (OpensBlock line) := decidable_of_iff _ opensBlock_iff.symm

theorem ofLine?_eq_none {l : SpannedLine} (h : ¬ OpensBlock l.text) :
    OpenBlock.ofLine? l = none := by
  unfold OpenBlock.ofLine?
  split
  · next hterm =>
    split
    · next info tag hfence => exact absurd ⟨hterm, info, tag, hfence⟩ h
    · rfl
  · rfl

theorem ofLine?_eq_some {l : SpannedLine} {info : Text} {tag : ScriptTag}
    (hterm : l.text.isTerminated = true) (hfence : Fence.ofLine? l.text = some ⟨info, some tag⟩) :
    OpenBlock.ofLine? l = some { opener := l.span, tag, info } := by
  unfold OpenBlock.ofLine?
  rw [if_pos hterm, hfence]

theorem scanLines_none_cons {l : Text} (h : ¬ OpensBlock l) (start : Nat) (ls : List Text) :
    scanLines none (spanLines start (l :: ls)) =
      scanLines none (spanLines (start + l.byteLength) ls) := by
  rw [spanLines, scanLines, ofLine?_eq_none h]

/-- Outside of a block, lines that open none are passed over. -/
theorem scanLines_none_append {ls : List Text} (h : ∀ l ∈ ls, ¬ OpensBlock l) (start : Nat)
    (rest : List SpannedLine) :
    scanLines none (spanLines start ls ++ rest) = scanLines none rest := by
  induction ls generalizing start with
  | nil => rfl
  | cons l ls ih =>
    rw [spanLines, List.cons_append, scanLines, ofLine?_eq_none (h l List.mem_cons_self)]
    exact ih (fun x hx => h x (List.mem_cons_of_mem l hx)) _

/-- Inside a block, lines that are no fence belong to its content. -/
theorem scanLines_some_append {ls : List Text} (h : ∀ l ∈ ls, Fence.ofLine? l = none)
    (b : OpenBlock) (start : Nat) (rest : List SpannedLine) :
    scanLines (some b) (spanLines start ls ++ rest) =
      scanLines (some { b with content := b.content ++ ls.flatten }) rest := by
  induction ls generalizing start b with
  | nil => rw [List.flatten_nil, List.append_nil]; rfl
  | cons l ls ih =>
    rw [spanLines, List.cons_append, scanLines]
    simp only [h l List.mem_cons_self]
    rw [ih (fun x hx => h x (List.mem_cons_of_mem l hx)), OpenBlock.push, List.flatten_cons,
      List.append_assoc]

theorem scanLines_some_fence {l : SpannedLine} {f : Fence} (h : Fence.ofLine? l.text = some f)
    (b : OpenBlock) (rest : List SpannedLine) :
    scanLines (some b) (l :: rest) =
      ⟨b.close l.span :: (scanLines none rest).blocks, (scanLines none rest).unclosed?⟩ := by
  rw [scanLines]
  simp only [h]

theorem forall_or_exists_fence (ls : List Text) :
    (∀ l ∈ ls, Fence.ofLine? l = none) ∨
      ∃ body closer post f, ls = body ++ closer :: post ∧
        (∀ l ∈ body, Fence.ofLine? l = none) ∧ Fence.ofLine? closer = some f := by
  induction ls with
  | nil => exact Or.inl fun l hl => absurd hl List.not_mem_nil
  | cons l ls ih =>
    cases hfence : Fence.ofLine? l with
    | some f =>
      exact Or.inr ⟨[], l, ls, f, rfl, fun x hx => absurd hx List.not_mem_nil, hfence⟩
    | none =>
      have hcons {body : List Text} (hbody : ∀ x ∈ body, Fence.ofLine? x = none) :
          ∀ x ∈ l :: body, Fence.ofLine? x = none := by
        intro x hx
        rcases List.mem_cons.mp hx with rfl | hx
        · exact hfence
        · exact hbody x hx
      rcases ih with hall | ⟨body, closer, post, f, rfl, hbody, hcloser⟩
      · exact Or.inl (hcons hall)
      · exact Or.inr ⟨l :: body, closer, post, f, rfl, hcons hbody, hcloser⟩

-- ---------------------------------------------------------------------------
-- Induction over scans
-- ---------------------------------------------------------------------------

/-- The lines as a scan takes them: a line that opens no block, a block that
is not closed, or a block from its opening line to its closing one, and what
is scanned behind that. -/
@[elab_as_elim]
theorem scan_induction {motive : List Text → Prop} (nil : motive [])
    (skip : ∀ l ls, ¬ OpensBlock l → motive ls → motive (l :: ls))
    (unclosed : ∀ opener body, OpensBlock opener → (∀ l ∈ body, Fence.ofLine? l = none) →
      motive (opener :: body))
    (block : ∀ opener body closer post, OpensBlock opener →
      (∀ l ∈ body, Fence.ofLine? l = none) → (Fence.ofLine? closer).isSome = true →
      motive post → motive (opener :: (body ++ closer :: post))) (ls : List Text) : motive ls := by
  match ls with
  | [] => exact nil
  | l :: ls =>
    by_cases hopens : OpensBlock l
    · rcases forall_or_exists_fence ls with hall | ⟨body, closer, post, f, hls, hbody, hcloser⟩
      · exact unclosed l ls hopens hall
      · have hpost := scan_induction nil skip unclosed block post
        rw [hls]
        exact block l body closer post hopens hbody (by rw [hcloser]; rfl) hpost
    · exact skip l ls hopens (scan_induction nil skip unclosed block ls)
termination_by ls.length
decreasing_by
  · rw [hls, List.length_cons, List.length_append, List.length_cons]
    omega
  · exact Nat.lt_succ_self _

-- ---------------------------------------------------------------------------
-- Blocks and their lines
-- ---------------------------------------------------------------------------

/-- The block that the lines `body` make between the fence lines `opener`,
which starts at byte `start`, and `closer`. -/
def Block.ofLines (start : Nat) (opener : Text) (body : List Text) (closer info : Text)
    (tag : ScriptTag) : Block where
  content := body.flatten
  start := start + opener.byteLength
  breakBefore? := if start = 0 then none else some (start - 1)
  span :=
    ⟨start, start + opener.byteLength + Text.byteLength body.flatten + closer.byteLength⟩
  tag
  info

/-- From an opening line on: the block is closed by the first fence, and what
stands behind that is scanned afresh. -/
theorem scanLines_opener {opener info : Text} {tag : ScriptTag}
    (hterm : opener.isTerminated = true) (hopener : Fence.ofLine? opener = some ⟨info, some tag⟩)
    {body : List Text} (hbody : ∀ l ∈ body, Fence.ofLine? l = none) {closer : Text} {f : Fence}
    (hcloser : Fence.ofLine? closer = some f) (start : Nat) (post : List Text) :
    scanLines none (spanLines start (opener :: (body ++ closer :: post))) =
      let b := Block.ofLines start opener body closer info tag
      let later := scanLines none (spanLines b.span.stop post)
      ⟨b :: later.blocks, later.unclosed?⟩ := by
  rw [spanLines, scanLines, ofLine?_eq_some hterm hopener, spanLines_append,
    scanLines_some_append hbody, spanLines, scanLines_some_fence hcloser]
  congr 2
  simp only [OpenBlock.close, Block.ofLines, Span.cover, List.nil_append, Block.mk.injEq,
    Span.mk.injEq, true_and, and_true]
  omega

/-- From an opening line that no fence follows nothing is yielded. -/
theorem scanLines_opener_unclosed {opener info : Text} {tag : ScriptTag}
    (hterm : opener.isTerminated = true) (hopener : Fence.ofLine? opener = some ⟨info, some tag⟩)
    {body : List Text} (hbody : ∀ l ∈ body, Fence.ofLine? l = none) (start : Nat) :
    scanLines none (spanLines start (opener :: body)) =
      ⟨[], some ⟨start, start + opener.byteLength⟩⟩ := by
  have happend := scanLines_some_append hbody
    { opener := ⟨start, start + opener.byteLength⟩, tag, info } (start + opener.byteLength) []
  rw [List.append_nil] at happend
  rw [spanLines, scanLines, ofLine?_eq_some hterm hopener, happend]
  rfl

/-- Every block that a scan yields has its lines among those scanned. -/
theorem exists_lines_of_mem_blocks {start : Nat} {ls : List Text} {b : Block}
    (h : b ∈ (scanLines none (spanLines start ls)).blocks) :
    ∃ pre opener body closer post info tag f,
      ls = pre ++ opener :: (body ++ closer :: post) ∧ opener.isTerminated = true ∧
      Fence.ofLine? opener = some ⟨info, some tag⟩ ∧ (∀ l ∈ body, Fence.ofLine? l = none) ∧
      Fence.ofLine? closer = some f ∧
      b = Block.ofLines (start + Text.byteLength pre.flatten) opener body closer info tag := by
  induction ls using scan_induction generalizing start with
  | nil => exact absurd h List.not_mem_nil
  | skip l ls hopens ih =>
    rw [scanLines_none_cons hopens] at h
    obtain ⟨pre, opener, body, closer, post, info, tag, f, rfl, hterm, hopener, hbody, hcloser,
      rfl⟩ := ih h
    refine ⟨l :: pre, opener, body, closer, post, info, tag, f, rfl, hterm, hopener, hbody,
      hcloser, ?_⟩
    rw [List.flatten_cons, Text.byteLength_append, Nat.add_assoc]
  | unclosed opener body hopens hbody =>
    obtain ⟨hterm, info, tag, hopener⟩ := hopens
    rw [scanLines_opener_unclosed hterm hopener hbody] at h
    exact absurd h List.not_mem_nil
  | block opener body closer post hopens hbody hcloser ih =>
    obtain ⟨hterm, info, tag, hopener⟩ := hopens
    obtain ⟨f, hcloser⟩ := Option.isSome_iff_exists.mp hcloser
    rw [scanLines_opener hterm hopener hbody hcloser] at h
    rcases List.mem_cons.mp h with rfl | h
    · exact ⟨[], opener, body, closer, post, info, tag, f, rfl, hterm, hopener, hbody, hcloser,
        rfl⟩
    · -- a later block: the scan goes on behind the closing fence
      obtain ⟨pre, opener', body', closer', post', info', tag', f', rfl, hterm', hopener',
        hbody', hcloser', rfl⟩ := ih h
      refine ⟨opener :: (body ++ closer :: pre), opener', body', closer', post', info', tag', f',
        ?_, hterm', hopener', hbody', hcloser', ?_⟩
      · simp only [List.cons_append, List.append_assoc]
      · congr 1
        simp only [Block.ofLines, List.flatten_cons, List.flatten_append,
          Text.byteLength_append]
        omega

-- ---------------------------------------------------------------------------
-- Blocks and their texts
-- ---------------------------------------------------------------------------

/-- The block stands in the text behind `before` and its opening line, with
`rest` behind its content. -/
structure Block.StandsIn (b : Block) (t before opener rest : Text) : Prop where
  text_eq : t = before ++ (opener ++ (b.content ++ rest))
  before_closed : before.IsClosed
  opener_closed : opener.IsClosed
  opener_count : opener.count '\n' = 1
  rest_ne_nil : rest ≠ []
  start_eq : b.start = Text.byteLength (before ++ opener)
  breakBefore_eq : b.breakBefore? = if before = [] then none else some (before.byteLength - 1)

theorem closer_ne_nil {closer : Text} {f : Fence} (h : Fence.ofLine? closer = some f) :
    closer ≠ [] := by
  rintro rfl
  simp [Fence.ofLine?] at h

/-- The lines of a block in those of a text give it its place there. -/
theorem Block.standsIn_ofLines {t opener closer info : Text} {pre body post : List Text}
    {tag : ScriptTag} {f : Fence} (hls : t.lines = pre ++ opener :: (body ++ closer :: post))
    (hterm : opener.isTerminated = true) (hcloser : Fence.ofLine? closer = some f) :
    (Block.ofLines (Text.byteLength pre.flatten) opener body closer info tag).StandsIn t
      pre.flatten opener (closer ++ post.flatten) := by
  -- the only line feed of the opening line is its last character
  obtain ⟨m, hm, hopener⟩ : ∃ m, '\n' ∉ m ∧ opener = m ++ ['\n'] := by
    obtain ⟨m, hm, hor⟩ := Text.exists_of_mem_lines (t := t) (l := opener)
      (hls ▸ List.mem_append_right _ List.mem_cons_self)
    rcases hor with hor | ⟨rfl, -⟩
    · exact ⟨m, hm, hor⟩
    · obtain ⟨s, rfl⟩ := Text.isTerminated_iff.mp hterm
      exact absurd (by simp) hm
  constructor
  case text_eq =>
    show t = pre.flatten ++ (opener ++ (body.flatten ++ (closer ++ post.flatten)))
    rw [← Text.flatten_lines t, hls]
    simp only [List.flatten_append, List.flatten_cons]
  case before_closed => exact (Text.isClosed_of_lines_eq hls).1
  case opener_closed => exact Or.inr hterm
  case opener_count =>
    rw [hopener, List.count_append, List.count_eq_zero_of_not_mem hm, List.count_cons_self,
      List.count_nil]
  case rest_ne_nil => exact List.append_ne_nil_of_left_ne_nil (closer_ne_nil hcloser) _
  case start_eq =>
    show Text.byteLength pre.flatten + opener.byteLength = _
    rw [Text.byteLength_append]
  case breakBefore_eq =>
    show (if Text.byteLength pre.flatten = 0 then none
      else some (Text.byteLength pre.flatten - 1)) = _
    simp only [Text.byteLength_eq_zero_iff]

/-- Every block of a text **has its place** there. -/
theorem Block.exists_standsIn {t : Text} {b : Block} (h : b ∈ (scanBlocks t).blocks) :
    ∃ before opener rest, b.StandsIn t before opener rest := by
  obtain ⟨pre, opener, body, closer, post, info, tag, f, hls, hterm, -, -, hcloser, rfl⟩ :=
    exists_lines_of_mem_blocks h
  rw [Nat.zero_add]
  exact ⟨_, _, _, standsIn_ofLines hls hterm hcloser⟩

end FenceFacts
